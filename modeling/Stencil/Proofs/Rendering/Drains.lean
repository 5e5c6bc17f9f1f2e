import Stencil.Proofs.Rendering.Histories
/-!
# Streams that are read to their end

A rendering that succeeds was given every stream that it asked for, and has read it to its end before it
gave it back (`render_drains`): whoever cannot go on with a stream, or leaves it early, fails.
-/

set_option autoImplicit false

namespace Stencil.Render

open Stencil.Stream (Item)
open Stencil.Syntax

namespace Exchange

/-- The exchange in which a stream is asked for. -/
def takes (source handle : Nat) (given : Bool) : Exchange where
  request := .take source handle
  answer := given

/-- The exchange in which a source is found to have ended. -/
def ends (source : Nat) : Exchange where
  request := .pull source
  answer := (.ok none : Except Cause (Option Item))

end Exchange

/-- Whether a request neither gives a source back nor opens one under its number. -/
def Request.Leaves (source : Nat) (request : Request) : Prop :=
  request ≠ .release source ∧ request.opened? ≠ some source

/-- Whether a history comes to the end of a source, before it gives the source back or opens another
under its number. -/
def Drained (source : Nat) (history : List Exchange) : Prop :=
  ∃ reads rest, history = reads ++ .ends source :: rest ∧
    ∀ exchange ∈ reads, exchange.request.Leaves source

theorem Drained.append {source : Nat} {history : List Exchange} (drained : Drained source history)
    (later : List Exchange) : Drained source (history ++ later) := by
  obtain ⟨reads, rest, rfl, quiet⟩ := drained
  exact ⟨reads, rest ++ later, by simp, quiet⟩

theorem Drained.behind {source : Nat} {history before : List Exchange} (drained : Drained source history)
    (quiet : ∀ exchange ∈ before, exchange.request.Leaves source) :
    Drained source (before ++ history) := by
  obtain ⟨reads, rest, rfl, still⟩ := drained
  refine ⟨before ++ reads, rest, by simp, fun exchange listed => ?_⟩
  exact (List.mem_append.1 listed).elim (quiet exchange) (still exchange)

/-- A request that is not about a source neither opens nor gives it back. -/
theorem leaves_of_apart {source : Nat} {request : Request} (apart : request.source? ≠ some source) :
    request.Leaves source := by
  refine ⟨fun same => apart (same ▸ rfl), fun opened => apart ?_⟩
  cases request <;> first | exact opened | exact nomatch opened

namespace Process

variable {α β : Type}

/-- Whether a process that succeeds was given all streams that it asked for, and has read each to its
end. -/
def Drains (succeeds : α → Prop) (p : Process α) : Prop :=
  ∀ before source handle given later result,
    p.Passes (before ++ .takes source handle given :: later) (.done result) → succeeds result →
    given = true ∧ Drained source later

variable {succeeds : α → Prop} {goal : β → Prop}

theorem drains_done (result : α) : (done result).Drains succeeds := by
  intro before source handle given later out passes
  have := passes.of_done.1
  simp at this

theorem drains_ask {holding : Holding} {request : Request} {next : request.Answer → Process α}
    (other : ∀ source handle, request ≠ .take source handle)
    (later : ∀ answer, (next answer).Drains succeeds) :
    (Process.ask holding request next).Drains succeeds := by
  intro before source handle given rest result passes
  cases before with
  | nil =>
    obtain ⟨holding', next', same, -⟩ := passes.cons_inv
    cases same
    exact absurd rfl (other source handle)
  | cons exchange before =>
    cases passes with
    | more behind => exact later _ before source handle given rest result behind

/-- Where the second process only succeeds behind a success of the first. -/
theorem drains_bind {p : Process α} {next : α → Process β} (first : p.Drains succeeds)
    (second : ∀ history result, p.Passes history (.done result) → (next result).Drains goal)
    (success : ∀ result history out, (next result).Passes history (.done out) → goal out →
      succeeds result) : (p.bind next).Drains goal := by
  intro before source handle given later out passes succeeded
  obtain ⟨front, back, result, same, inner, behind⟩ := passes.bind_done
  rcases List.append_eq_append_iff.1 same with ⟨middle, rfl, same'⟩ | ⟨middle, rfl, rfl⟩
  · cases middle with
    | nil =>
      obtain rfl : .takes source handle given :: later = back := same'
      exact second before result (by simpa using inner) [] source handle given later out behind succeeded
    | cons exchange middle =>
      rw [List.cons_append, List.cons.injEq] at same'
      obtain ⟨rfl, rfl⟩ := same'
      obtain ⟨given_, drained⟩ := first before source handle given middle result inner
        (success result back out behind succeeded)
      exact ⟨given_, drained.append back⟩
  · exact second front result inner middle source handle given later out behind succeeded

/-- A process that deals only with sources from a number on. -/
theorem Numbered.sources {post : α → Nat → Prop} {floor next : Nat} {p q : Process α}
    {history : List Exchange} (numbered : p.Numbered post floor next) (passes : Passes p history q) :
    ∀ exchange ∈ history, ∀ source, exchange.request.source? = some source → floor ≤ source := by
  induction passes generalizing next with
  | here p => exact fun _ listed => nomatch listed
  | more _ ih =>
    obtain ⟨about, -, goes⟩ := numbered
    intro exchange listed
    rcases List.mem_cons.1 listed with rfl | listed
    · exact about
    · exact ih (goes _) exchange listed

end Process

namespace RenderM

variable {α β : Type} {settings : Settings}

/-- Whether a part of a rendering has not failed. -/
def Succeeded {α : Type} (out : Except Failure α × State) : Prop := ∃ result, out.1 = .ok result

/-- Whether a part of a rendering, from whatever state it starts, reads streams to their end. -/
def Draining (m : RenderM α) : Prop := ∀ state, (m.start state).Drains Succeeded

theorem Draining.bind {m : RenderM α} {next : α → RenderM β} (first : Draining m)
    (rest : ∀ result, Draining (next result)) : Draining (m >>= next) := by
  intro state
  rw [start_bind]
  refine Process.drains_bind (first state) (fun _ out _ => ?_) fun out history out' passes succeeded => ?_
  · obtain ⟨result, behind⟩ := out
    cases result with
    | error failure => exact Process.drains_done _
    | ok result => exact rest result behind
  · obtain ⟨result, behind⟩ := out
    cases result with
    | error failure =>
      obtain ⟨-, same⟩ := passes.of_done
      cases same
      exact nomatch succeeded
    | ok result => exact ⟨result, rfl⟩

/-- A part behind which only the state is changed. -/
theorem Draining.around {m : RenderM α} (draining : Draining m) (state : State) (restore : State → State) :
    ((m.start state).bind fun out => .done (out.1, restore out.2)).Drains Succeeded := by
  refine Process.drains_bind (draining state) (fun _ _ _ => Process.drains_done _)
    fun out history out' passes succeeded => ?_
  obtain ⟨-, same⟩ := passes.of_done
  cases same
  exact succeeded

theorem Draining.within {m : RenderM α} (draining : Draining m) (frame : Frame) :
    Draining (within frame m) := fun state =>
  draining.around { state with scope := state.scope.push frame }
    fun behind => { behind with scope := behind.scope.pop }

theorem Draining.keeping {m : RenderM α} (draining : Draining m) (values : List Value) :
    Draining (keeping values m) := fun state =>
  draining.around { state with inUse := values ++ state.inUse }
    fun behind => { behind with inUse := state.inUse }

section

variable {loop : Loop} (draining : Draining (loop.body settings))

include draining

theorem draining_rounds_items (array : Value) (n : Nat) :
    ∀ rest index written, Draining (loop.rounds settings n (.items array rest) index written) := by
  induction n with
  | zero => exact fun _ _ _ _ => Process.drains_done _
  | succ n ih =>
    intro rest index written state
    refine Process.drains_ask (nofun) fun _ => ?_
    cases rest with
    | nil => exact Process.drains_done _
    | cons value rest =>
      exact ((draining.within _).bind fun text => ih rest (index + 1) (written ++ text)) state

theorem draining_rounds_external (source n : Nat) :
    ∀ index written, Draining (loop.rounds settings n (.external source) index written) := by
  induction n with
  | zero => exact fun _ _ _ => Process.drains_done _
  | succ n ih =>
    intro index written state
    refine Process.drains_ask (nofun) fun answer => ?_
    match answer with
    | .error cause => exact Process.drains_done _
    | .ok none => exact Process.drains_done _
    | .ok (some item) =>
      exact ((draining.within _).bind fun text => ih (index + 1) (written ++ text)) state

omit draining in
/-- The rounds over a source end well only when the source has ended. -/
theorem drained_rounds (counts : Counts (loop.body settings)) {source : Nat} (n : Nat) :
    ∀ (index : Nat) (written : String) (state : State), source < state.fresh → ∀ history out,
      ((loop.rounds settings n (.external source) index written).start state).Passes history (.done out) →
      Succeeded out → Drained source history := by
  induction n with
  | zero =>
    intro index written state less history out passes succeeded
    obtain ⟨-, same⟩ := passes.of_done
    cases same
    exact nomatch succeeded
  | succ n ih =>
    intro index written state less history out passes succeeded
    cases history with
    | nil => exact nomatch passes.nil_eq
    | cons exchange history =>
      obtain ⟨holding, next, same, behind⟩ := passes.cons_inv
      obtain ⟨request, answer⟩ := exchange
      cases same
      match answer, behind with
      | .error cause, behind =>
        obtain ⟨-, same⟩ := behind.of_done
        cases same
        exact nomatch succeeded
      | .ok none, behind => exact ⟨[], history, rfl, nofun⟩
      | .ok (some item), behind =>
        have behind : ((within (loop.frame index item) (loop.body settings) >>= fun text =>
            loop.rounds settings n (.external source) (index + 1) (written ++ text)).start state).Passes
              history (.done out) := behind
        rw [start_bind] at behind
        obtain ⟨front, back, ⟨result, state'⟩, rfl, inner, later⟩ := behind.bind_done
        have numbered := counts.within (loop.frame index item) state
        obtain ⟨number, ended⟩ := numbered.passes inner
        cases result with
        | error failure =>
          obtain ⟨-, same⟩ := later.of_done
          cases same
          exact nomatch succeeded
        | ok text =>
          have drained := ih (index + 1) (written ++ text) state' (less.trans_le ended.2) back out later
            succeeded
          have quiet : ∀ exchange ∈ front, exchange.request.source? ≠ some source := by
            intro exchange listed about
            exact absurd (numbered.sources inner exchange listed source about) (Nat.not_le_of_lt less)
          show Drained source ((_ :: front) ++ back)
          refine drained.behind fun exchange listed => ?_
          rcases List.mem_cons.1 listed with rfl | listed
          · exact ⟨(nofun), (nofun)⟩
          · exact leaves_of_apart (quiet exchange listed)

/-- Behind the rounds the source is given back. -/
theorem drains_begin (counts : Counts (loop.body settings)) {source : Nat} (state : State)
    (less : source < state.fresh) (n : Nat) :
    let p := (releasing (.external source) (loop.rounds settings n (.external source) 0 "")).start state
    p.Drains Succeeded ∧
      ∀ history out, p.Passes history (.done out) → Succeeded out → Drained source history := by
  intro p
  have split : p = ((loop.rounds settings n (.external source) 0 "").start state).bind (giveBack source) :=
    start_releasing_external source _ state
  have same : ∀ out history out', (giveBack source out).Passes history (.done out') → out' = out := by
    intro out history out' passes
    cases history with
    | nil => exact nomatch passes.nil_eq
    | cons exchange history =>
      obtain ⟨holding, next, equal, behind⟩ := passes.cons_inv
      obtain ⟨request, answer⟩ := exchange
      cases equal
      obtain ⟨-, equal⟩ := behind.of_done
      cases equal
      rfl
  rw [split]
  constructor
  · refine Process.drains_bind (draining_rounds_external draining source n 0 "" state)
      (fun _ out _ => Process.drains_ask (nofun) fun _ => Process.drains_done _)
      fun out history out' passes succeeded => ?_
    rw [← same out history out' passes]
    exact succeeded
  · intro history out passes succeeded
    obtain ⟨front, back, result, rfl, inner, behind⟩ := passes.bind_done
    obtain rfl := same result back out behind
    exact (drained_rounds counts n 0 "" state less front _ inner succeeded).append back

theorem draining_iterate (counts : Counts (loop.body settings)) (collection : Value) :
    Draining (loop.iterate settings collection) := by
  intro state
  obtain ⟨drains, drained⟩ := drains_begin draining counts { state with fresh := state.fresh + 1 }
    (Nat.lt_succ_self state.fresh) settings.limit
  cases collection with
  | array identity items =>
    exact (draining_rounds_items draining (.array identity items) settings.limit items 0 "").keeping
      [.array identity items] { state with fresh := state.fresh + 1 }
  | iterable handle => exact Process.drains_ask (nofun) fun _ => drains
  | stream handle =>
    intro before source handle' given later out passes succeeded
    cases before with
    | nil =>
      obtain ⟨holding, next, same, behind⟩ := passes.cons_inv
      cases same
      cases given with
      | true => exact ⟨rfl, drained later out behind succeeded⟩
      | false =>
        obtain ⟨-, same⟩ := behind.of_done
        cases same
        exact nomatch succeeded
    | cons exchange before =>
      obtain ⟨holding, next, same, behind⟩ := passes.cons_inv
      obtain ⟨request, answer⟩ := exchange
      cases same
      match answer, behind with
      | true, behind => exact drains before source handle' given later out behind succeeded
      | false, behind =>
        exact Process.drains_done _ before source handle' given later out behind succeeded
  | _ => exact Process.drains_done _

end

/-- Whatever a rendering is built of, it reads streams to their end. -/
theorem Built.draining {m : RenderM α} (built : Built settings m) : Draining m := by
  induction built with
  | pure result => exact fun _ => Process.drains_done _
  | throw failure => exact fun _ => Process.drains_done _
  | bind first rest ih ih' => exact ih.bind ih'
  | scope => exact fun _ => Process.drains_done _
  | modifyScope f => exact fun _ => Process.drains_done _
  | freshIdentity => exact fun _ => Process.drains_done _
  | @ask request apart =>
    intro state
    refine Process.drains_ask (fun source handle same => ?_) fun _ => Process.drains_done _
    rw [same] at apart
    exact nomatch apart
  | within frame inner ih => exact ih.within frame
  | keeping values inner ih => exact ih.keeping values
  | iterate loop collection inner ih => exact draining_iterate ih inner.counts collection

end RenderM

open RenderM

/-- A rendering that succeeds was given every stream that it asked for, and has read it to its end. -/
theorem render_drains (settings : Settings) (name : String) (data : Value) (fresh : Nat) :
    (render settings name data fresh).Drains fun out => ∃ text, out = .ok text := by
  refine Process.drains_bind ((built_renderTemplate settings.limit name).draining _)
    (fun _ _ _ => Process.drains_done _) fun out history out' passes succeeded => ?_
  obtain ⟨-, same⟩ := passes.of_done
  cases same
  exact succeeded

end Stencil.Render

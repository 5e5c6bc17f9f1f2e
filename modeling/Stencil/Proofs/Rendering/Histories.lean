import Stencil.Proofs.Rendering.Shape
import Stencil.Render.Schedule
import Mathlib.Order.Nat
/-!
# Histories of processes

A process passes through a history of exchanges: what it has asked, and what it was answered. From the
history of a rendering one can tell what it was doing: between the exchange that brought an item and
the next one about the same source it has rendered the body of the iteration for this item, and
nothing else (`render_loops`).
-/

set_option autoImplicit false

namespace Stencil.Render

open Stencil.Stream (Item)
open Stencil.Syntax

/-- A request and its answer. -/
structure Exchange where
  request : Request
  answer : request.Answer

/-- The exchange that brings an item of a source. -/
def Exchange.brings (source : Nat) (item : Item) : Exchange where
  request := .pull source
  answer := (.ok (some item) : Except Cause (Option Item))

/-- Whether a request asks for a stream. -/
def Request.asksFor (stream : Nat) : Request → Bool
  | .take _ handle => handle = stream
  | _ => false

/-- How often a stream was asked for in a history. -/
def askings (stream : Nat) (history : List Exchange) : Nat :=
  history.countP fun exchange => exchange.request.asksFor stream

theorem askings_cons (stream : Nat) (exchange : Exchange) (history : List Exchange) :
    askings stream (exchange :: history) =
      askings stream history + if exchange.request.asksFor stream then 1 else 0 :=
  List.countP_cons

theorem askings_append (stream : Nat) (history later : List Exchange) :
    askings stream (history ++ later) = askings stream history + askings stream later :=
  List.countP_append

/-- A request that is about no source opens none. -/
theorem Request.opened?_eq_none {request : Request} (apart : request.source? = none) :
    request.opened? = none := by
  cases request <;> first | rfl | exact nomatch apart

namespace Process

variable {α β : Type}

/-- Whether a process comes to another one by a history. -/
inductive Passes : Process α → List Exchange → Process α → Prop
  | here (p : Process α) : Passes p [] p
  | more {holding : Holding} {request : Request} {next : request.Answer → Process α}
    {answer : request.Answer} {history : List Exchange} {p : Process α}
    (later : Passes (next answer) history p) :
    Passes (.ask holding request next) (⟨request, answer⟩ :: history) p

/-- What a process asks for. -/
def asks? : Process α → Option Request
  | done _ => none
  | ask _ request _ => some request

@[simp] theorem asks?_done (result : α) : (done result).asks? = none := rfl

@[simp] theorem asks?_ask (holding : Holding) (request : Request)
    (next : request.Answer → Process α) : (ask holding request next).asks? = some request := rfl

theorem asks?_bind {p : Process α} {request : Request} (asks : p.asks? = some request)
    (next : α → Process β) : (p.bind next).asks? = some request := by
  cases p with
  | done result => exact nomatch asks
  | ask holding request' after => exact asks

namespace Passes

variable {p q r : Process α} {history later : List Exchange}

theorem nil_eq (passes : Passes p [] q) : p = q := by
  cases passes
  rfl

theorem of_done {result : α} (passes : Passes (done result) history q) :
    history = [] ∧ q = done result := by
  cases passes
  exact ⟨rfl, rfl⟩

/-- The first exchange of a history is about what the process asks. -/
theorem cons_inv {exchange : Exchange} (passes : Passes p (exchange :: history) q) :
    ∃ holding next, p = .ask holding exchange.request next ∧
      Passes (next exchange.answer) history q := by
  cases passes with
  | more later => exact ⟨_, _, rfl, later⟩

theorem append (first : Passes p history q) (second : Passes q later r) :
    Passes p (history ++ later) r := by
  induction first with
  | here p => exact second
  | more _ ih => exact .more (ih second)

theorem concat {holding : Holding} {request : Request} {next : request.Answer → Process α}
    (passes : Passes p history (.ask holding request next)) (answer : request.Answer) :
    Passes p (history ++ [⟨request, answer⟩]) (next answer) :=
  passes.append (.more (.here _))

theorem bind (passes : Passes p history q) (next : α → Process β) :
    Passes (p.bind next) history (q.bind next) := by
  induction passes with
  | here p => exact .here _
  | more _ ih => exact .more ih

/-- A process that goes on with the result of another is still in that one, or behind it. -/
theorem bind_inv {next : α → Process β} {end_ : Process β} (passes : Passes (p.bind next) history end_) :
    (∃ q, Passes p history q ∧ end_ = q.bind next) ∨
      ∃ first second result, history = first ++ second ∧ Passes p first (done result) ∧
        Passes (next result) second end_ := by
  induction p generalizing history with
  | done result => exact .inr ⟨[], history, result, rfl, .here _, passes⟩
  | ask holding request after ih =>
    cases passes with
    | here => exact .inl ⟨_, .here _, rfl⟩
    | more later =>
      rcases ih _ later with ⟨q, inner, rfl⟩ | ⟨first, second, result, rfl, inner, behind⟩
      · exact .inl ⟨q, .more inner, rfl⟩
      · exact .inr ⟨_ :: first, second, result, rfl, .more inner, behind⟩

/-- A process that goes on with the result of another ends behind it. -/
theorem bind_done {next : α → Process β} {out : β} (passes : Passes (p.bind next) history (done out)) :
    ∃ front back result, history = front ++ back ∧ Passes p front (done result) ∧
      Passes (next result) back (done out) := by
  rcases passes.bind_inv with ⟨q, inner, same⟩ | split
  · cases q with
    | ask holding request after => exact nomatch same
    | done result =>
      have behind : (next result).Passes [] (.done out) := same ▸ .here _
      exact ⟨history, [], result, (List.append_nil _).symm, inner, behind⟩
  · exact split

/-- A process ends in one way by what it is asked and answered. -/
theorem done_unique {result other : α} {history' rest rest' : List Exchange}
    (first : Passes p history (done result)) (second : Passes p history' (done other))
    (same : history ++ rest = history' ++ rest') :
    history = history' ∧ result = other ∧ rest = rest' := by
  generalize ended : done result = last at first
  induction first generalizing history' with
  | here p =>
    subst ended
    obtain ⟨rfl, same'⟩ := second.of_done
    cases same'
    exact ⟨rfl, rfl, same⟩
  | more _ ih =>
    cases second with
    | more second =>
      rw [List.cons_append, List.cons_append] at same
      obtain ⟨exchange, tails⟩ := List.cons.inj same
      cases exchange
      obtain ⟨rfl, equal⟩ := ih second tails ended
      exact ⟨rfl, equal⟩

end Passes

/-- What a process asks and is answered while a host lets it go on. -/
def exchanges {σ : Type} (host : Host σ) (task : Nat) : Process α → σ → List Exchange
  | done _, _ => []
  | ask _ request next, state =>
    match host.answer task request state with
    | (.ready answer, state) => ⟨request, answer⟩ :: (next answer).exchanges host task state
    | (.pending, _) => []

/-- A process that a host lets go on passes through what it asks and is answered. -/
theorem passes_exchanges {σ : Type} (host : Host σ) (task : Nat) (p : Process α) (state : σ) :
    Passes p (p.exchanges host task state) (p.poll host task state).1 := by
  induction p generalizing state with
  | done result => exact .here _
  | ask holding request next ih =>
    rw [exchanges, poll]
    cases host.answer task request state with
    | mk reply behind =>
      cases reply with
      | ready answer => exact .more (ih answer behind)
      | pending => exact .here _

/-! ## Numbers of sources -/

/-- Whether a process deals only with sources from a number on, opens each under a number that it has
not used, from the second number on, and ends with a condition on the numbers that are left. -/
def Numbered (post : α → Nat → Prop) (floor : Nat) : Process α → Nat → Prop
  | done result, next => post result next
  | ask _ request after, next =>
    (∀ source, request.source? = some source → floor ≤ source) ∧
    (∀ source, request.opened? = some source → next ≤ source) ∧
    ∀ answer, (after answer).Numbered post floor
      (match request.opened? with
        | some source => source + 1
        | none => next)

variable {post : α → Nat → Prop} {floor : Nat} {next : Nat}

theorem Numbered.mono {weaker : α → Nat → Prop} {p : Process α} {floor' next' : Nat}
    (numbered : p.Numbered post floor next) (floors : floor' ≤ floor) (nexts : next' ≤ next)
    (implied : ∀ result lower number, lower ≤ number → post result number → weaker result lower) :
    p.Numbered weaker floor' next' := by
  induction p generalizing next next' with
  | done result => exact implied result _ _ nexts numbered
  | ask holding request after ih =>
    obtain ⟨about, opens, goes⟩ := numbered
    refine ⟨fun source same => floors.trans (about source same),
      fun source same => nexts.trans (opens source same), fun answer => ih answer (goes answer) ?_⟩
    split
    · exact le_rfl
    · exact nexts

theorem Numbered.bind {goal : β → Nat → Prop} {p : Process α} {after : α → Process β}
    (numbered : p.Numbered (fun result next => (after result).Numbered goal floor next) floor next) :
    (p.bind after).Numbered goal floor next := by
  induction p generalizing next with
  | done result => exact numbered
  | ask holding request inner ih =>
    obtain ⟨about, opens, goes⟩ := numbered
    exact ⟨about, opens, fun answer => ih answer (goes answer)⟩

theorem Numbered.passes {p q : Process α} {history : List Exchange}
    (numbered : p.Numbered post floor next) (passes : Passes p history q) :
    ∃ next, q.Numbered post floor next := by
  induction passes generalizing next with
  | here p => exact ⟨next, numbered⟩
  | more _ ih => exact ih (numbered.2.2 _)

end Process

namespace RenderM

variable {settings : Settings}

/-- Whether a part of a rendering takes the numbers of its sources from those that are free, and
leaves only free numbers behind. -/
def Counts {α : Type} (m : RenderM α) : Prop :=
  ∀ state : State, (m.start state).Numbered
    (fun out next => next ≤ out.2.fresh ∧ state.fresh ≤ out.2.fresh) state.fresh state.fresh

theorem Counts.bind {α β : Type} {m : RenderM α} {next : α → RenderM β} (first : Counts m)
    (rest : ∀ result, Counts (next result)) : Counts (m >>= next) := by
  intro state
  rw [start_bind]
  apply Process.Numbered.bind
  refine (first state).mono le_rfl le_rfl fun out lower number less ends => ?_
  obtain ⟨result, behind⟩ := out
  cases result with
  | error failure => exact ⟨less.trans ends.1, ends.2⟩
  | ok result =>
    refine (rest result behind).mono ends.2 (less.trans ends.1) fun out lower number less ends' => ?_
    exact ⟨less.trans ends'.1, ends.2.trans ends'.2⟩

/-- A part that changes nothing but the scope and asks nothing. -/
theorem Counts.of_done {α : Type} {m : RenderM α}
    (done : ∀ state, ∃ result behind, m.start state = .done (result, behind) ∧
      state.fresh ≤ behind.fresh) : Counts m := by
  intro state
  obtain ⟨result, behind, same, less⟩ := done state
  rw [same]
  exact ⟨less, less⟩

/-- Running a part in another state, and putting parts of the state back, does not change that. -/
theorem Counts.around {α : Type} {m : RenderM α} (counts : Counts m) (state inner : State)
    (fresh : inner.fresh = state.fresh) (restore : State → State)
    (kept : ∀ behind, (restore behind).fresh = behind.fresh) :
    ((m.start inner).bind fun out => .done (out.1, restore out.2)).Numbered
      (fun out next => next ≤ out.2.fresh ∧ state.fresh ≤ out.2.fresh) state.fresh state.fresh := by
  apply Process.Numbered.bind
  refine (counts inner).mono fresh.ge fresh.ge fun out lower number less ends => ?_
  show lower ≤ (restore out.2).fresh ∧ state.fresh ≤ (restore out.2).fresh
  rw [kept]
  exact ⟨less.trans ends.1, fresh.ge.trans ends.2⟩

theorem Counts.within {α : Type} {m : RenderM α} (counts : Counts m) (frame : Frame) :
    Counts (within frame m) := fun state =>
  counts.around state { state with scope := state.scope.push frame } rfl
    (fun behind => { behind with scope := behind.scope.pop }) fun _ => rfl

theorem Counts.keeping {α : Type} {m : RenderM α} (counts : Counts m) (values : List Value) :
    Counts (keeping values m) := fun state =>
  counts.around state { state with inUse := values ++ state.inUse } rfl
    (fun behind => { behind with inUse := state.inUse }) fun _ => rfl

section

variable {loop : Loop} (counts : Counts (loop.body settings))

include counts

/-- Between the rounds of an iteration over an array nothing is opened. -/
theorem counts_rounds_items (array : Value) (n : Nat) :
    ∀ rest index written, Counts (loop.rounds settings n (.items array rest) index written) := by
  induction n with
  | zero => exact fun _ _ _ => Counts.of_done fun state => ⟨_, _, rfl, le_rfl⟩
  | succ n ih =>
    intro rest index written state
    refine ⟨(nofun), (nofun), fun _ => ?_⟩
    cases rest with
    | nil => exact ⟨le_rfl, le_rfl⟩
    | cons value rest =>
      exact ((counts.within _).bind fun text => ih rest (index + 1) (written ++ text)) state

/-- The rounds over a source deal with it and with sources of higher numbers. -/
theorem numbered_rounds_external {source : Nat} (n : Nat) :
    ∀ (index : Nat) (written : String) (state : State), source < state.fresh →
      ((loop.rounds settings n (.external source) index written).start state).Numbered
        (fun out next => next ≤ out.2.fresh ∧ state.fresh ≤ out.2.fresh) source state.fresh := by
  induction n with
  | zero => exact fun _ _ _ _ => ⟨le_rfl, le_rfl⟩
  | succ n ih =>
    intro index written state less
    refine ⟨fun other same => (Option.some.inj same).le, (nofun), fun answer => ?_⟩
    match answer with
    | .error cause => exact ⟨le_rfl, le_rfl⟩
    | .ok none => exact ⟨le_rfl, le_rfl⟩
    | .ok (some item) =>
      show Process.Numbered _ source ((within (loop.frame index item) (loop.body settings) >>=
        fun text => loop.rounds settings n (.external source) (index + 1)
          (written ++ text)).start state) state.fresh
      rw [start_bind]
      apply Process.Numbered.bind
      refine (counts.within _ state).mono less.le le_rfl fun out lower number under ends => ?_
      obtain ⟨result, behind⟩ := out
      cases result with
      | error failure => exact ⟨under.trans ends.1, ends.2⟩
      | ok text =>
        refine (ih (index + 1) (written ++ text) behind (less.trans_le ends.2)).mono le_rfl
          (under.trans ends.1) fun out lower number under ends' => ?_
        exact ⟨under.trans ends'.1, ends.2.trans ends'.2⟩

theorem numbered_releasing {source : Nat} (n : Nat) (state : State) (less : source < state.fresh) :
    ((releasing (.external source) (loop.rounds settings n (.external source) 0 "")).start
      state).Numbered (fun out next => next ≤ out.2.fresh ∧ state.fresh ≤ out.2.fresh) source
        state.fresh := by
  rw [start_releasing_external]
  apply Process.Numbered.bind
  refine (numbered_rounds_external counts n 0 "" state less).mono le_rfl le_rfl
    fun out lower number under ends => ?_
  exact ⟨fun other same => (Option.some.inj same).le, (nofun), fun _ => ⟨under.trans ends.1, ends.2⟩⟩

theorem counts_iterate (collection : Value) : Counts (loop.iterate settings collection) := by
  intro state
  -- Both an iterable and a stream are read from a source with the number of the iteration.
  have external : ((releasing (.external state.fresh)
      (loop.rounds settings settings.limit (.external state.fresh) 0 "")).start
        { state with fresh := state.fresh + 1 }).Numbered
          (fun out next => next ≤ out.2.fresh ∧ state.fresh ≤ out.2.fresh) state.fresh (state.fresh + 1) :=
    (numbered_releasing counts settings.limit { state with fresh := state.fresh + 1 }
      (Nat.lt_succ_self _)).mono le_rfl le_rfl
        fun out lower number under ends => ⟨under.trans ends.1, (Nat.le_succ _).trans ends.2⟩
  have failed : ∀ failure number, number ≤ state.fresh + 1 →
      (Process.done ((.error failure : Except Failure String),
        ({ state with fresh := state.fresh + 1 } : State))).Numbered (fun out next =>
          next ≤ out.2.fresh ∧ state.fresh ≤ out.2.fresh) state.fresh number :=
    fun _ _ less => ⟨less, Nat.le_succ _⟩
  have about : ∀ other, some state.fresh = some other → state.fresh ≤ other :=
    fun other same => (Option.some.inj same).le
  cases collection with
  | array identity items =>
    have loops := (counts_rounds_items counts (.array identity items) settings.limit items 0 "").keeping
      [.array identity items] { state with fresh := state.fresh + 1 }
    exact loops.mono (Nat.le_succ _) (Nat.le_succ _) fun out lower number under ends =>
      ⟨under.trans ends.1, (Nat.le_succ _).trans ends.2⟩
  | iterable handle => exact ⟨about, about, fun _ => external⟩
  | stream handle =>
    refine ⟨about, about, fun answer => ?_⟩
    match answer with
    | true => exact external
    | false => exact failed _ _ le_rfl
  | _ => exact failed _ _ (Nat.le_succ _)

end

/-- Every rendering numbers its sources. -/
theorem Built.counts {α : Type} {m : RenderM α} (built : Built settings m) : Counts m := by
  induction built with
  | pure result => exact Counts.of_done fun state => ⟨_, _, rfl, le_rfl⟩
  | throw failure => exact Counts.of_done fun state => ⟨_, _, rfl, le_rfl⟩
  | bind first rest ih ih' => exact ih.bind ih'
  | scope => exact Counts.of_done fun state => ⟨_, _, rfl, le_rfl⟩
  | modifyScope f => exact Counts.of_done fun state => ⟨_, _, rfl, le_rfl⟩
  | freshIdentity => exact Counts.of_done fun state => ⟨_, _, rfl, Nat.le_succ _⟩
  | @ask request apart =>
    intro state
    have closed := Request.opened?_eq_none apart
    refine ⟨fun source same => (nomatch apart.symm.trans same),
      fun source same => (nomatch closed.symm.trans same), fun _ => ?_⟩
    rw [closed]
    exact ⟨le_rfl, le_rfl⟩
  | within frame inner ih => exact ih.within frame
  | keeping values inner ih => exact ih.keeping values
  | iterate loop collection inner ih => exact counts_iterate ih collection

/-! ## Rounds of iterations -/

/-- A round of an iteration: the iteration, the index of the item, and the state before. -/
structure Round where
  loop : Loop
  index : Nat
  state : State

/-- The process of a round: the body is rendered in the frame of the item. -/
def Round.process (settings : Settings) (round : Round) (item : Item) :
    Process (Except Failure String × State) :=
  (within (round.loop.frame round.index item) (round.loop.body settings)).start round.state

/-- Whether what goes on behind a round is that the next item is asked for, or that the source is
given back. The latter is so when the round has failed. -/
structure Returns {α : Type} (source : Nat) (after : Except Failure String × State → Process α) :
    Prop where
  rendered : ∀ text state, (after (.ok text, state)).asks? = some (.pull source) ∨
    (after (.ok text, state)).asks? = some (.release source)
  failed : ∀ failure state, (after (.error failure, state)).asks? = some (.release source)

/-- Behind a round the source is dealt with at once. -/
theorem Returns.about {α : Type} {source : Nat} {after : Except Failure String × State → Process α}
    (returns : Returns source after) {out : Except Failure String × State} {request : Request}
    (asks : (after out).asks? = some request) : request.source? = some source := by
  obtain ⟨result, state⟩ := out
  cases result with
  | error failure =>
    rw [returns.failed failure state] at asks
    exact Option.some.inj asks ▸ rfl
  | ok text =>
    rcases returns.rendered text state with asks' | asks' <;>
      exact Option.some.inj (asks'.symm.trans asks) ▸ rfl

/-- Whether a process is in a round for an item of a source, with a history since the round began, or
has just come to the end of it. Rounds have nothing to do with the source. -/
inductive InRound {α : Type} (settings : Settings) (source : Nat) (item : Item)
    (history : List Exchange) : Process α → Prop
  | intro (round : Round) {now : Process (Except Failure String × State)}
    {after : Except Failure String × State → Process α}
    (passes : (round.process settings item).Passes history now)
    (apart : ∃ next, now.Numbered (fun _ _ => True) (source + 1) next)
    (returns : Returns source after) : InRound settings source item history (now.bind after)

end RenderM

open RenderM

/-- Whether a process that was given an item is in the round for it, until it deals with the source
again. -/
def Process.Loops {α : Type} (settings : Settings) (p : Process α) : Prop :=
  ∀ before later (source : Nat) (item : Item) end_,
    p.Passes (before ++ .brings source item :: later) end_ →
    (∀ exchange ∈ later, exchange.request.source? ≠ some source) →
    InRound settings source item later end_

namespace RenderM

variable {α β : Type} {settings : Settings}

theorem InRound.bind {source : Nat} {item : Item} {history : List Exchange} {p : Process α}
    (inside : InRound settings source item history p) (next : α → Process β) :
    InRound settings source item history (p.bind next) := by
  obtain ⟨round, passes, apart, returns⟩ := inside
  rw [Process.bind_bind]
  refine .intro round passes apart ⟨fun text state => ?_, fun failure state => ?_⟩
  · exact (returns.rendered text state).imp (Process.asks?_bind · next) (Process.asks?_bind · next)
  · exact Process.asks?_bind (returns.failed failure state) next

/-- A process in a round has not ended. -/
theorem InRound.asks {source : Nat} {item : Item} {history : List Exchange} {p : Process α}
    (inside : InRound settings source item history p) : ∃ request, p.asks? = some request := by
  obtain ⟨round, passes, apart, returns⟩ := inside
  rename_i now after
  cases now with
  | ask holding request next => exact ⟨request, rfl⟩
  | done out =>
    obtain ⟨result, state⟩ := out
    cases result with
    | error failure => exact ⟨_, returns.failed failure state⟩
    | ok text => exact (returns.rendered text state).elim (⟨_, ·⟩) (⟨_, ·⟩)

theorem loops_done (result : α) : (Process.done result).Loops settings := by
  intro before later source item end_ passes
  have := passes.of_done.1
  simp at this

/-- Only when an item is asked for a round may begin. -/
theorem loops_ask {holding : Holding} {request : Request} {next : request.Answer → Process α}
    (other : ∀ source, request ≠ .pull source) (later : ∀ answer, (next answer).Loops settings) :
    (Process.ask holding request next).Loops settings := by
  intro before rest source item end_ passes apart
  cases before with
  | nil =>
    obtain ⟨holding', next', same, -⟩ := passes.cons_inv
    cases same
    exact absurd rfl (other source)
  | cons exchange before =>
    cases passes with
    | more behind => exact later _ before rest source item end_ behind apart

theorem loops_bind {p : Process α} {next : α → Process β} (first : p.Loops settings)
    (second : ∀ history result, p.Passes history (.done result) → (next result).Loops settings) :
    (p.bind next).Loops settings := by
  intro before later source item end_ passes apart
  rcases passes.bind_inv with ⟨q, inner, rfl⟩ | ⟨front, back, result, same, inner, behind⟩
  · exact (first before later source item q inner apart).bind next
  · have behind_loops := second front result inner
    rcases List.append_eq_append_iff.1 same with ⟨middle, rfl, same'⟩ | ⟨middle, rfl, rfl⟩
    · cases middle with
      | nil =>
        obtain rfl : .brings source item :: later = back := same'
        exact behind_loops [] later source item end_ behind apart
      | cons exchange middle =>
        -- The round would have to be over when the first process has ended, and it is not.
        rw [List.cons_append, List.cons.injEq] at same'
        obtain ⟨rfl, rfl⟩ := same'
        obtain ⟨request, asks⟩ := (first before middle source item _ inner fun exchange listed =>
          apart exchange (List.mem_append_left _ listed)).asks
        exact nomatch asks
    · exact behind_loops middle later source item end_ behind apart

/-- Whether a part of a rendering, from whatever state it starts, is in rounds for its items. -/
def Loopy {α : Type} (settings : Settings) (m : RenderM α) : Prop :=
  ∀ state, (m.start state).Loops settings

theorem Loopy.bind {m : RenderM α} {next : α → RenderM β} (first : Loopy settings m)
    (rest : ∀ result, Loopy settings (next result)) : Loopy settings (m >>= next) := by
  intro state
  rw [start_bind]
  refine loops_bind (first state) fun _ out _ => ?_
  obtain ⟨result, behind⟩ := out
  cases result with
  | error failure => exact loops_done _
  | ok result => exact rest result behind

theorem Loopy.within {m : RenderM α} (loopy : Loopy settings m) (frame : Frame) :
    Loopy settings (within frame m) := by
  intro state
  rw [start_within]
  exact loops_bind (loopy _) fun _ _ _ => loops_done _

theorem Loopy.keeping {m : RenderM α} (loopy : Loopy settings m) (values : List Value) :
    Loopy settings (keeping values m) := by
  intro state
  rw [start_keeping]
  exact loops_bind (loopy _) fun _ _ _ => loops_done _

section

variable {loop : Loop} (loopy : Loopy settings (loop.body settings))

include loopy

theorem loopy_rounds_items (array : Value) (n : Nat) :
    ∀ rest index written, Loopy settings (loop.rounds settings n (.items array rest) index written) := by
  induction n with
  | zero => exact fun _ _ _ _ => loops_done _
  | succ n ih =>
    intro rest index written state
    refine loops_ask (nofun) fun _ => ?_
    cases rest with
    | nil => exact loops_done _
    | cons value rest =>
      exact ((loopy.within _).bind fun text => ih rest (index + 1) (written ++ text)) state

/-- What stands behind the rounds over a source: it is given back. -/
def giveBack (source : Nat) (out : Except Failure String × State) :
    Process (Except Failure String × State) :=
  .ask out.2.holding (.release source) fun _ => .done out

omit loopy in
theorem loops_giveBack (source : Nat) (out : Except Failure String × State) :
    (giveBack source out).Loops settings :=
  loops_ask (nofun) fun _ => loops_done _

variable (counts : Counts (loop.body settings))

include counts

/-- An item of a source is followed by the round for it. -/
theorem loops_rounds_external {source : Nat} (n : Nat) :
    ∀ (index : Nat) (written : String) (state : State), source < state.fresh →
      (((loop.rounds settings n (.external source) index written).start state).bind
        (giveBack source)).Loops settings := by
  induction n with
  | zero => exact fun _ _ _ _ => loops_giveBack _ _
  | succ n ih =>
    intro index written state less
    -- What stands behind the round for an item: further rounds, or the failure of this one.
    let after : Except Failure String × State → Process (Except Failure String × State) := fun out =>
      (onward (fun text => loop.rounds settings n (.external source) (index + 1) (written ++ text))
        out).bind (giveBack source)
    have returns : Returns source after := by
      refine ⟨fun text state => ?_, fun failure state => rfl⟩
      cases n with
      | zero => exact .inr rfl
      | succ n => exact .inl rfl
    have round : ∀ item, ((within (loop.frame index item) (loop.body settings) >>= fun text =>
        loop.rounds settings n (.external source) (index + 1) (written ++ text)).start state).bind
          (giveBack source) = ((Round.mk loop index state).process settings item).bind after := by
      intro item
      rw [start_bind, Process.bind_bind]
      rfl
    intro before later other item end_ passes apart
    cases before with
    | nil =>
      obtain ⟨holding, next, same, behind⟩ := passes.cons_inv
      cases same
      have behind : (((Round.mk loop index state).process settings item).bind after).Passes later
        end_ := round item ▸ behind
      have started : ((Round.mk loop index state).process settings item).Numbered (fun _ _ => True)
          (source + 1) state.fresh :=
        (counts.within _ state).mono less le_rfl fun _ _ _ _ _ => trivial
      rcases behind.bind_inv with ⟨now, inner, rfl⟩ | ⟨front, back, out, rfl, inner, rest⟩
      · exact .intro _ inner (started.passes inner) returns
      · cases back with
        | nil =>
          cases rest.nil_eq
          rw [List.append_nil]
          exact @InRound.intro _ _ _ _ _ ⟨loop, index, state⟩ (.done out) after inner
            (started.passes inner) returns
        | cons exchange back =>
          refine absurd ?_ (apart exchange (List.mem_append_right _ List.mem_cons_self))
          obtain ⟨holding, next, same, -⟩ := rest.cons_inv
          exact returns.about (by rw [same]; rfl)
    | cons exchange before =>
      obtain ⟨holding, next, same, behind⟩ := passes.cons_inv
      obtain ⟨request, answer⟩ := exchange
      cases same
      match answer, behind with
      | .error cause, behind => exact loops_giveBack source _ before later other item end_ behind apart
      | .ok none, behind => exact loops_giveBack source _ before later other item end_ behind apart
      | .ok (some item'), behind =>
        have goes : (((Round.mk loop index state).process settings item').bind after).Loops settings := by
          refine loops_bind (loopy.within _ state) fun history out ends => ?_
          obtain ⟨number, numbered⟩ := (counts.within _ state).passes ends
          obtain ⟨result, behind⟩ := out
          cases result with
          | error failure => exact loops_giveBack source _
          | ok text => exact ih (index + 1) (written ++ text) behind (less.trans_le numbered.2)
        exact goes before later other item end_ (round item' ▸ behind) apart

theorem loopy_iterate (collection : Value) : Loopy settings (loop.iterate settings collection) := by
  intro state
  -- Both an iterable and a stream are read from a source with the number of the iteration.
  have external : ((releasing (.external state.fresh) (loop.rounds settings settings.limit
      (.external state.fresh) 0 "")).start { state with fresh := state.fresh + 1 }).Loops settings :=
    loops_rounds_external loopy counts settings.limit 0 "" _ (Nat.lt_succ_self _)
  cases collection with
  | array identity items =>
    exact (loopy_rounds_items loopy (.array identity items) settings.limit items 0 "").keeping
      [.array identity items] { state with fresh := state.fresh + 1 }
  | iterable handle => exact loops_ask (nofun) fun _ => external
  | stream handle =>
    refine loops_ask (nofun) fun answer => ?_
    match answer with
    | true => exact external
    | false => exact loops_done _
  | _ => exact loops_done _

end

/-- Whatever a rendering is built of, it is in rounds for its items. -/
theorem Built.loopy {m : RenderM α} (built : Built settings m) : Loopy settings m := by
  induction built with
  | pure result => exact fun _ => loops_done _
  | throw failure => exact fun _ => loops_done _
  | bind first rest ih ih' => exact ih.bind ih'
  | scope => exact fun _ => loops_done _
  | modifyScope f => exact fun _ => loops_done _
  | freshIdentity => exact fun _ => loops_done _
  | @ask request apart =>
    intro state
    refine loops_ask (fun source same => ?_) fun _ => loops_done _
    rw [same] at apart
    exact nomatch apart
  | within frame inner ih => exact ih.within frame
  | keeping values inner ih => exact ih.keeping values
  | iterate loop collection inner ih => exact loopy_iterate ih inner.counts collection

end RenderM

variable {settings : Settings}

/-- A rendering that was given an item is in the round for it, until it deals with the source again. -/
theorem render_loops (name : String) (data : Value) (fresh : Nat) :
    (render settings name data fresh).Loops settings :=
  loops_bind ((built_renderTemplate settings.limit name).loopy _) fun _ _ _ => loops_done _

/-- A rendering opens each of its sources under a number of its own. -/
theorem render_numbered (name : String) (data : Value) (fresh : Nat) :
    (render settings name data fresh).Numbered (fun _ _ => True) fresh fresh := by
  apply Process.Numbered.bind
  exact ((built_renderTemplate settings.limit name).counts _).mono le_rfl le_rfl
    fun _ _ _ _ _ => trivial

end Stencil.Render

import Stencil.Render.Renderer
import Stencil.Render.World
import Mathlib.Data.Set.Insert
import Mathlib.Logic.Function.Basic
import Mathlib.Order.BooleanAlgebra.Set
/-!
# What a process sees of the world

A rendering shares the world with others. What it can notice of the world is a `View`: what each
stream and each of its own sources still gives. In a view a process has one `outcome`. A process is
`Orderly` when that is enough to know how it goes on in any world: it asks only for what it can
reach, it reads only sources that are open, and it does not tell a template that it finds in the
cache from one that it loads.
-/

set_option autoImplicit false

namespace Stencil.Render

open Stencil.Stream (Item)
open Stencil.Syntax (Template)

/-- What a collection still gives: its items, up to the end or a failure. -/
abbrev Script : Type := List (Except Cause Item)

/-- The values of an item or failure. -/
def scriptValues (entry : Except Cause Item) : List Value :=
  (entry.toOption.map Item.values).getD []

/-- The handles of what a collection still gives. -/
def Script.handles (script : Script) : List Handle :=
  (script.flatMap scriptValues).flatMap Value.handles

theorem Script.handles_cons (entry : Except Cause Item) (rest : Script) :
    Script.handles (entry :: rest) =
      (scriptValues entry).flatMap Value.handles ++ Script.handles rest := by
  simp [Script.handles]

/-- The handles that a process holds on to. -/
def Holding.handles (holding : Holding) : List Handle := holding.all.flatMap Value.handles

/-- The handles that a request names. -/
def Request.handles : Request → List Handle
  | .lookup handle _ => [.dynamic handle]
  | .call handle args => .function handle :: args.flatMap Value.handles
  | .iterate _ handle => [.iterable handle]
  | .take _ handle => [.stream handle]
  | _ => []

/-- The values in an answer. -/
def Request.told : (request : Request) → request.Answer → List Value
  | .lookup .., .ok value => [value]
  | .call .., .ok value => [value]
  | .pull _, .ok (some item) => item.values
  | _, _ => []

/-! ## Views -/

/-- What a process sees of the world. -/
structure View where
  /-- What a stream gives to the first who takes it. -/
  streams : Nat → Option Script
  /-- What a source of the process still gives. -/
  sources : Nat → Option Script
  /-- How often the process has asked for a stream. -/
  asked : Nat → Nat

namespace View

variable (v : View)

/-- The view in which a source gives what it says. -/
def opened (source : Nat) (script : Script) : View :=
  { v with sources := Function.update v.sources source (some script) }

/-- The view in which nothing is left of a source. -/
def spent (source : Nat) : View := { v with sources := Function.update v.sources source none }

/-- The view behind asking for a stream. -/
def askedFor (stream : Nat) : View :=
  { v with
    streams := Function.update v.streams stream none
    asked := Function.update v.asked stream (v.asked stream + 1) }

/-- The answer to a request, and the view behind it. Nothing is ever found in the cache. -/
def answer (provider : Provider) : (request : Request) → request.Answer × View
  | .cached _ => (none, v)
  | .store _ _ => ((), v)
  | .load name => (provider.load name, v)
  | .lookup handle name => (provider.lookup handle name, v)
  | .call handle args => (provider.call handle args, v)
  | .iterate source handle => ((), v.opened source (provider.iterable handle))
  | .take source handle =>
    match v.streams handle with
    | none => (false, v.askedFor handle)
    | some script => (true, (v.askedFor handle).opened source script)
  | .pull source =>
    match v.sources source with
    | none | some [] => (.ok none, v)
    | some (.ok item :: rest) => (.ok (some item), v.opened source rest)
    | some (.error cause :: rest) => (.error cause, v.opened source rest)
  | .release source => ((), v.spent source)
  | .pause => ((), v)

end View

/-- What a provider says about its functions, lookups and iterables is true: what they give, they
keep or were given. -/
structure Provider.Honest (provider : Provider) : Prop where
  call : ∀ function args value, provider.call function args = .ok value →
    ∀ handle ∈ value.handles, handle ∈ args.flatMap Value.handles ∨
      ∃ keeper ∈ provider.keepers, keeper.1 = .function function ∧
        handle ∈ keeper.2.flatMap Value.handles
  lookup : ∀ lookup name value, provider.lookup lookup name = .ok value →
    ∀ handle ∈ value.handles, ∃ keeper ∈ provider.keepers, keeper.1 = .dynamic lookup ∧
      handle ∈ keeper.2.flatMap Value.handles
  iterable : ∀ iterable, ∀ handle ∈ Script.handles (provider.iterable iterable),
    ∃ keeper ∈ provider.keepers, keeper.1 = .iterable iterable ∧
      handle ∈ keeper.2.flatMap Value.handles

/-- Whether a template is what its name is loaded and parsed to. -/
def Coherent (settings : Settings) (provider : Provider) (name : String) (template : Template) :
    Prop :=
  ∃ source, provider.load name = .ok source ∧
    parseTemplate ⟨settings.positions, false⟩ source = .ok template

/-- A name is loaded and parsed to one template. -/
theorem Coherent.unique {settings : Settings} {provider : Provider} {name : String}
    {template other : Template} (first : Coherent settings provider name template)
    (second : Coherent settings provider name other) : template = other := by
  obtain ⟨source, loaded, parsed⟩ := first
  obtain ⟨source', loaded', parsed'⟩ := second
  rw [loaded] at loaded'
  cases loaded'
  exact Except.ok.inj (parsed.symm.trans parsed')

namespace Process

variable {α β : Type} (settings : Settings) (provider : Provider)

/-- The result of a process in a view, and the view behind it. -/
def outcome : Process α → View → α × View
  | done result, v => (result, v)
  | ask _ request next, v =>
    (next (v.answer provider request).1).outcome (v.answer provider request).2

/-- The number of the questions that a process asks in a view. -/
def questions : Process α → View → Nat
  | done _, _ => 0
  | ask _ request next, v =>
    (next (v.answer provider request).1).questions (v.answer provider request).2 + 1

@[simp] theorem outcome_done (result : α) (v : View) :
    (done result).outcome provider v = (result, v) := rfl

theorem outcome_bind (p : Process α) (next : α → Process β) (v : View) :
    (p.bind next).outcome provider v =
      (next (p.outcome provider v).1).outcome provider (p.outcome provider v).2 := by
  induction p generalizing v with
  | done result => rfl
  | ask holding request after ih => exact ih _ _

theorem questions_bind (p : Process α) (next : α → Process β) (v : View) :
    (p.bind next).questions provider v =
      p.questions provider v +
        (next (p.outcome provider v).1).questions provider (p.outcome provider v).2 := by
  induction p generalizing v with
  | done result => simp [questions, outcome]
  | ask holding request after ih =>
    simp only [bind_ask, questions, ih, outcome]
    omega

/-! ## Orderly processes -/

/-- Whether a process may ask that. While others go on, it must hold what it asks for. -/
def Allowed (holding : Holding) (readable : Set Nat) : Request → Prop
  | .lookup handle _ => .dynamic handle ∈ holding.handles
  | .store name template => Coherent settings provider name template
  | .pull source => source ∈ readable
  | _ => True

/-- Whether a process may be answered that. -/
def Possible : (request : Request) → request.Answer → Prop
  | .cached name, answer => ∀ template, answer = some template →
      Coherent settings provider name template
  | .load name, answer => answer = provider.load name
  | _, _ => True

/-- The sources that are open behind an answer and have neither ended nor failed. -/
def readableBehind (readable : Set Nat) : (request : Request) → request.Answer → Set Nat
  | .iterate source _, _ => insert source readable
  | .take source _, true => insert source readable
  | .pull _, .ok (some _) => readable
  | .pull source, _ => readable \ {source}
  | .release source, _ => readable \ {source}
  | _, _ => readable

/-- Whether a template from the cache makes no difference, other than that of fewer questions. -/
def Oblivious : (request : Request) → (request.Answer → Process α) → Prop
  | .cached name, next => ∀ template, Coherent settings provider name template → ∀ v,
      (next (some template)).outcome provider v = (next none).outcome provider v ∧
      (next (some template)).questions provider v ≤ (next none).questions provider v
  | _, _ => True

/-- Whether a process keeps to the rules and ends with a condition, given what it can reach and what
sources it can read. What it does not hold on to may go out of reach whenever it asks. -/
def Orderly (post : α → Set Handle → Set Nat → Prop) : Process α → Set Handle → Set Nat → Prop
  | done result, known, readable => post result known readable
  | ask holding request next, known, readable =>
    (∀ handle ∈ holding.handles ++ request.handles, handle ∈ known) ∧
    Allowed settings provider holding readable request ∧ Oblivious settings provider request next ∧
    ∀ known : Set Handle, (∀ handle ∈ holding.handles ++ request.handles, handle ∈ known) →
      ∀ answer, Possible settings provider request answer →
        (∀ handle ∈ (request.told answer).flatMap Value.handles, handle ∈ known) →
        (next answer).Orderly post known (readableBehind readable request answer)

variable {settings provider}

@[simp] theorem orderly_done {post : α → Set Handle → Set Nat → Prop} (result : α)
    (known : Set Handle) (readable : Set Nat) :
    (done result).Orderly settings provider post known readable ↔ post result known readable :=
  Iff.rfl

theorem Orderly.mono {post weaker : α → Set Handle → Set Nat → Prop} {p : Process α}
    {known : Set Handle} {readable : Set Nat}
    (orderly : p.Orderly settings provider post known readable)
    (implied : ∀ result known readable, post result known readable → weaker result known readable) :
    p.Orderly settings provider weaker known readable := by
  induction p generalizing known readable with
  | done result => exact implied result known readable orderly
  | ask holding request next ih =>
    obtain ⟨reach, allowed, oblivious, goes⟩ := orderly
    exact ⟨reach, allowed, oblivious, fun known held answer possible told =>
      ih answer (goes known held answer possible told)⟩

theorem Oblivious.bind {request : Request} {after : request.Answer → Process α}
    (oblivious : Oblivious settings provider request after) (next : α → Process β) :
    Oblivious settings provider request fun answer => (after answer).bind next := by
  cases request with
  | cached name =>
    intro template coherent v
    obtain ⟨same, fewer⟩ := oblivious template coherent v
    rw [outcome_bind, outcome_bind, questions_bind, questions_bind, same]
    exact ⟨rfl, by omega⟩
  | _ => trivial

theorem Orderly.bind {post : β → Set Handle → Set Nat → Prop} {p : Process α}
    {next : α → Process β} {known : Set Handle} {readable : Set Nat}
    (orderly : p.Orderly settings provider
      (fun result known readable => (next result).Orderly settings provider post known readable)
      known readable) :
    (p.bind next).Orderly settings provider post known readable := by
  induction p generalizing known readable with
  | done result => exact orderly
  | ask holding request after ih =>
    obtain ⟨reach, allowed, oblivious, goes⟩ := orderly
    exact ⟨reach, allowed, oblivious.bind next, fun known held answer possible told =>
      ih answer (goes known held answer possible told)⟩

end Process

end Stencil.Render

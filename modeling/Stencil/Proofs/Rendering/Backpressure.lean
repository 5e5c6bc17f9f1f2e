import Stencil.Proofs.Rendering.Independence
import Stencil.Proofs.Rendering.Tracing
/-!
# Backpressure

An emitter that waits for its calls never runs ahead of the renderings: in every course of a stage, a
call is accepted only when a rendering was given the item, has rendered the body of its iteration for
it to the end, and has asked for the next one (`Stage.backpressure`).
-/

set_option autoImplicit false

namespace Stencil.Render

open Stencil.Stream
open RenderM

section

variable {α : Type} {settings : Settings}

/-- How a call of an emitter stands whose item was given to a rendering, which now is the process
`now`: by how far the round for the item has come, and by what the rendering has done behind it. -/
inductive Resolves (source : Nat) (now : Option (Process α)) :
    Process (Except Failure String × State) → List Exchange → Option Outcome → Prop
  /-- The body is being rendered, and the call waits. -/
  | rendering {holding : Holding} {request : Request}
    {next : request.Answer → Process (Except Failure String × State)} :
    Resolves source now (.ask holding request next) [] none
  /-- The body was rendered or has failed, and the rendering is about to ask for the next item or to
  give the source back. -/
  | returning {result : Except Failure String} {behind : State} {p : Process α} (current : now = some p)
    (returns : p.asks? = some (.pull source) ∧ result.toBool ∨ p.asks? = some (.release source)) :
    Resolves source now (.done (result, behind)) [] none
  /-- The body was rendered, and the rendering has asked for the next item. -/
  | accepted {text : String} {behind : State} {rest : List Exchange}
    (pulls : PullsNext source now rest) :
    Resolves source now (.done (.ok text, behind)) rest (some .accepted)
  /-- The body was rendered or has failed, and the rendering has given the source back. -/
  | closed {result : Except Failure String} {behind : State} {rest : List Exchange}
    (released : rest.head?.map Exchange.request = some (.release source)) :
    Resolves source now (.done (result, behind)) rest (some .closed)

/-- How a call stands whose item was delivered. -/
theorem Fate.resolves {world : World} {history : List Exchange} {now : Option (Process α)}
    {number : Nat} {entry : Delivered} {item : Item}
    (fate : Fate settings world history now number entry item) {sent : List Item} {taken : List Nat}
    (tally : (world.channel number).Tally sent taken) {began current : Process α}
    (loops : began.Loops settings) (here : now = some current) (passes : began.Passes history current) :
    ∃ (source : Nat) (round : Round) (process : Process (Except Failure String × State))
      (before inside rest : List Exchange),
      history = before ++ .brings source item :: (inside ++ rest) ∧ before.length = entry.place ∧
      (round.process settings item).Passes inside process ∧
      Resolves source now process rest ((world.channel number).outcome? entry.ticket) := by
  cases fate with
  | @held before later source split place apart holds mine =>
    have unresolved : (world.channel number).outcome? entry.ticket = none := by
      refine tally.outcome?_none ?_
      rw [Channel.unsettled, holds]
      exact List.mem_append_left _ (List.mem_singleton.2 rfl)
    have split' : history = before ++ .brings source item :: (later ++ []) := by
      rw [List.append_nil]
      exact split
    rw [unresolved]
    subst here
    obtain ⟨round, inner, -, returns⟩ := loops before later source item current (split ▸ passes) apart
    rename_i process after
    refine ⟨source, round, process, before, later, [], split', place, inner, ?_⟩
    cases process with
    | ask holding request next => exact .rendering
    | done out =>
      obtain ⟨result, behind⟩ := out
      refine .returning rfl ?_
      cases result with
      | error failure => exact .inr (returns.failed failure behind)
      | ok text => exact (returns.rendered text behind).imp (⟨·, rfl⟩) fun released => released
  | @accepted before inside rest source round text behind split place rendered pulls settled =>
    refine ⟨source, round, _, before, inside, rest, split, place, rendered, ?_⟩
    rw [tally.outcome?_eq settled]
    exact .accepted pulls
  | @closed before inside rest source round result behind split place ended released settled =>
    refine ⟨source, round, _, before, inside, rest, split, place, ended, ?_⟩
    rw [tally.outcome?_eq settled]
    exact .closed released

end

namespace Stage

variable {settings : Settings} {provider : Provider}

/-- At the start nothing has happened. -/
theorem traced_ofCalls {world : World} (calm : world.Calm) (kept : List Value) (calls : List Call) :
    Traced settings (ofCalls settings world kept calls) (ofCalls settings world kept calls) {} := by
  have process : ∀ (task : Nat) (q : Process (Except Failure String)),
      (ofCalls settings world kept calls).renderings[task]? = some q →
      ∃ call : Call, q = call.process settings := by
    intro task q here
    have here : (calls.map (Call.process settings))[task]? = some q := here
    rw [List.getElem?_map] at here
    obtain ⟨call, -, same⟩ := Option.map_eq_some_iff.1 here
    exact ⟨call, same.symm⟩
  have source : ∀ key, world.source? key = none := calm.source?
  refine ⟨⟨fun place other number here there => ?_, fun place number here => ?_, ?_⟩, ⟨fun task q here => ?_,
    fun _ _ => rfl, fun task q here => ?_, fun task listed => ?_⟩, fun number => ?_, fun number entry listed => ?_⟩
  · cases place with
    | source key => cases (source key).symm.trans here
    | stream stream =>
      cases other with
      | source key => cases (source key).symm.trans there
      | stream stream' => exact congrArg Place.stream (calm.exclusive _ _ _ here there)
  · cases place with
    | source key => cases (source key).symm.trans here
    | stream stream => exact calm.inside stream number here
  · exact calm.waiting ▸ List.nodup_nil
  · exact ⟨q, here, .here q⟩
  · obtain ⟨call, rfl⟩ := process task q here
    refine ⟨call.fresh, (render_numbered call.name call.data call.fresh).mono (Nat.zero_le _) le_rfl
      fun _ _ _ _ _ => trivial, fun number some_ => absurd (source _) some_⟩
  · have listed : task ∈ world.waiting := listed
    rw [calm.waiting] at listed
    cases listed
  · have empty : world.channel number = {} := by
      by_cases inside : number < world.producers.length
      · exact (calm.channels number _ (List.getElem?_eq_getElem inside)).2.1
      · have outside : world.channels.length ≤ number := by
          rw [calm.length]
          exact Nat.le_of_not_lt inside
        rw [World.channel, List.getElem?_eq_none_iff.2 outside]
        rfl
    show Channel.Tally (world.channel number) [] []
    rw [empty]
    exact Channel.tally_new
  · cases listed

end Stage

end Stencil.Render

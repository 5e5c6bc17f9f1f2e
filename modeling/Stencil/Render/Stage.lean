import Stencil.Render.World
/-!
# Renderings that run together

Renderings and producers take turns. A move lets one of them go on as far as it can, and then
the streams that nobody can reach any more are given up; any list of moves is a possible course
(`follow`), and `settle` repeats rounds in which each has its turn.
-/

set_option autoImplicit false

namespace Stencil.Render

/-- A rendering that runs. -/
abbrev Rendering (α : Type) : Type := Process α

/-- Whose turn it is. -/
inductive Move where
  | rendering (number : Nat)
  | producer (number : Nat)
deriving DecidableEq

/-- Renderings, and the world they run in. -/
structure Stage (α : Type) where
  renderings : List (Rendering α)
  world : World
  /-- Values that stay in use when all renderings have ended. -/
  kept : List Value := []

namespace Stage

variable {α : Type}

/-- The results of the renderings that have ended. -/
def results (stage : Stage α) : List (Option α) :=
  stage.renderings.map Process.result?

/-- Whether all renderings have ended and all producers are gone. -/
def isSettled (stage : Stage α) : Bool :=
  stage.results.all Option.isSome && stage.world.producers.all (·.2.gone)

/-- The values in use outside the world. -/
def inUse (stage : Stage α) : List Value :=
  stage.kept ++ stage.renderings.flatMap Process.held

/-- Gives up the streams that nobody can reach. -/
def abandon (provider : Provider) (stage : Stage α) : Stage α :=
  { stage with world := stage.world.abandon provider stage.inUse }

/-- Lets one rendering or producer go on as far as it can. -/
def turn (provider : Provider) (stage : Stage α) : Move → Stage α
  | .rendering number =>
    match stage.renderings[number]? with
    | none => stage
    | some process =>
      let (process, world) := process.poll (World.host provider) number stage.world
      { stage with renderings := stage.renderings.set number process, world }
  | .producer number => { stage with world := stage.world.produce number }

/-- Makes a move. -/
def move (provider : Provider) (stage : Stage α) (move : Move) : Stage α :=
  (stage.turn provider move).abandon provider

/-- Makes moves one after the other. -/
def follow (provider : Provider) (moves : List Move) (stage : Stage α) : Stage α :=
  moves.foldl (move provider) stage

/-- The moves of a round: every rendering, and then every producer. -/
def round (stage : Stage α) : List Move :=
  (List.range stage.renderings.length).map .rendering
    ++ (List.range stage.world.producers.length).map .producer

/-- Makes rounds until all is settled. The first argument bounds their number. -/
def settle (provider : Provider) : Nat → Stage α → Stage α
  | 0, stage => stage
  | n + 1, stage =>
    if stage.isSettled then stage else settle provider n (stage.follow provider stage.round)

end Stage

end Stencil.Render

import Stencil.Render.RenderError
import Stencil.Table
/-!
# Sources in memory

Templates can be loaded from a table of sources. Some names may be known to fail.
-/

set_option autoImplicit false

namespace Stencil.Render

/-- Sources of templates by name. -/
structure Sources where
  templates : List (String × String) := []
  /-- Names that cannot be loaded, and why. -/
  failures : List (String × String) := []

namespace Sources

/-- Puts a source under a name. -/
def put (sources : Sources) (name source : String) : Sources :=
  { sources with templates := Table.put sources.templates name source }

/-- The source of a template. A name that is known to fail does so even if it has one. -/
def load (sources : Sources) (name : String) : Except Cause String :=
  match Table.get? sources.failures name, Table.get? sources.templates name with
  | some text, _ => .error { text }
  | none, some source => .ok source
  | none, none => .error { text := "no template named '" ++ name ++ "'" }

end Sources

end Stencil.Render

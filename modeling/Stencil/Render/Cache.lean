import Stencil.Analysis.Findings
import Stencil.Table
/-!
# Caches of parsed templates

A cache keeps the parsed templates by name. `listing` walks a cache along the references between
its templates.
-/

set_option autoImplicit false

namespace Stencil.Render

open Stencil.Syntax (Template)

/-- Parsed templates by name. -/
structure Cache where
  templates : List (String × Template) := []

namespace Cache

/-- The cache that holds nothing. -/
def empty : Cache := {}

/-- The template of a name. -/
def get? (cache : Cache) (name : String) : Option Template := Table.get? cache.templates name

/-- Whether the cache holds a template of the name. -/
def contains (cache : Cache) (name : String) : Bool := (cache.get? name).isSome

/-- Puts a template into the cache, in place of the one that has its name. -/
def insert (cache : Cache) (name : String) (template : Template) : Cache :=
  ⟨Table.put cache.templates name template⟩

/-- The number of templates in the cache. -/
def size (cache : Cache) : Nat := cache.templates.length

/-- What was put into the cache is found in it. -/
theorem get?_insert (cache : Cache) (name other : String) (template : Template) :
    (cache.insert name template).get? other
      = if other = name then some template else cache.get? other :=
  Table.get?_put ..

/-- The number of references between the templates of the cache. -/
def referenceCount (cache : Cache) : Nat :=
  cache.templates.foldr (fun entry count => entry.2.dependencies.length + count) 0

/-- Walks the cache from the names of a stack, leaving out names that were listed and names that
the cache does not hold. The first argument bounds the number of names that are taken off the
stack. -/
def listingFrom (cache : Cache) :
    Nat → (listed : List (String × List String)) → List String → List (String × List String)
  | 0, listed, _ => listed
  | _ + 1, listed, [] => listed
  | n + 1, listed, name :: rest =>
    if (Table.get? listed name).isSome then listingFrom cache n listed rest
    else
      match cache.get? name with
      | none => listingFrom cache n listed rest
      | some template =>
        let references := template.dependencies
        listingFrom cache n (listed ++ [(name, references)]) (references ++ rest)

/-- The templates that can be reached from a name along references, each once, with the names
that each refers to. Every template puts its references on the stack once, so the walk takes no
more names than there are references, and the first. -/
def listing (cache : Cache) (name : String) : List (String × List String) :=
  cache.listingFrom (cache.referenceCount + 2) [] [name]

end Cache

end Stencil.Render

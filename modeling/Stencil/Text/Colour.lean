/-!
# Terminal colours

A colour is switched on and off by an escape sequence: the escape character, an opening bracket,
digits and semicolons, and a closing `m`. `strip` removes such sequences and keeps all else.
-/

set_option autoImplicit false

namespace Stencil.Text.Colour

/-- The escape character. -/
def escapeMark : Char := '\x1b'

/-- The sequence that switches a style on, given its parameters. -/
def style (parameters : String) : String :=
  "\x1b[" ++ parameters ++ "m"

/-- Whether a character may stand among the parameters of a colour sequence. -/
def isParameter (c : Char) : Bool :=
  ('0' ≤ c && c ≤ '9') || c = ';'

/-- What follows the colour sequence whose parameters start here, if it is one. -/
def afterParameters : List Char → Option (List Char)
  | [] => none
  | c :: rest => if c = 'm' then some rest else if isParameter c then afterParameters rest else none

/-- What follows the colour sequence at the beginning of a text, if there is one. -/
def afterSequence? : List Char → Option (List Char)
  | '\x1b' :: '[' :: parameters => afterParameters parameters
  | _ => none

/-- Behind parameters there is less text than there was before them. -/
theorem length_afterParameters {cs rest : List Char} (found : afterParameters cs = some rest) :
    rest.length < cs.length := by
  induction cs with
  | nil => cases found
  | cons c cs ih =>
    rw [afterParameters] at found
    split at found
    · cases found
      exact Nat.lt_succ_self _
    · split at found
      · exact Nat.lt_succ_of_lt (ih found)
      · cases found

/-- Behind a colour sequence there is less text than there was before it. -/
theorem length_afterSequence? {cs rest : List Char} (found : afterSequence? cs = some rest) :
    rest.length < cs.length := by
  unfold afterSequence? at found
  split at found
  · have := length_afterParameters found
    simp only [List.length_cons]
    omega
  · cases found

/-- Removes every colour sequence from a text. -/
def strip : List Char → List Char
  | [] => []
  | c :: rest =>
    match _ : afterSequence? (c :: rest) with
    | some behind => strip behind
    | none => c :: strip rest
termination_by cs => cs.length
decreasing_by
  · exact length_afterSequence? ‹_›
  · exact Nat.lt_succ_self _

end Stencil.Text.Colour

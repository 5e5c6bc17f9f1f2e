/-!
# Kinds of error

What can go wrong while a template is read or rendered, and the broad category each kind falls
into.
-/

set_option autoImplicit false

namespace Stencil.Error

/-- Broad category of an error. -/
inductive Category where
  | lexical | syntactic | nameResolution | type | protocolViolation | load | external
deriving DecidableEq

/-- Kind of error. -/
inductive Kind where
  | invalidNumber
  | unterminatedString
  | unterminatedComment
  | unterminatedRegex
  | unterminatedVerbatim
  | unexpectedCharacter
  | unexpectedEof
  | unexpectedToken
  | unclosedBlock
  | mismatchedCloseTag
  | duplicateElse
  | elseAfterDefault
  | invalidAssignment
  | invalidSyntax
  | unresolvedName
  | notAnObject
  | notCallable
  | notIterable
  | invalidTemplateName
  | disallowedExpression
  | protocolViolation
  | templateLoad
  | collaborator
deriving DecidableEq

namespace Kind

/-- The title under which an error of this kind is reported. -/
def title : Kind → String
  | invalidNumber => "Invalid number"
  | unterminatedString => "Unterminated string"
  | unterminatedComment => "Unterminated comment"
  | unterminatedRegex => "Unterminated regular expression"
  | unterminatedVerbatim => "Unterminated verbatim block"
  | unexpectedCharacter => "Unexpected character"
  | unexpectedEof => "Unexpected end of input"
  | unexpectedToken => "Unexpected token"
  | unclosedBlock => "Unclosed block"
  | mismatchedCloseTag => "Mismatched close tag"
  | duplicateElse => "Duplicate default else"
  | elseAfterDefault => "Else after default else"
  | invalidAssignment => "Invalid assignment"
  | invalidSyntax => "Invalid syntax"
  | unresolvedName => "Unresolved name"
  | notAnObject => "Not an object"
  | notCallable => "Not callable"
  | notIterable => "Not iterable"
  | invalidTemplateName => "Invalid template name"
  | disallowedExpression => "Disallowed expression"
  | protocolViolation => "Protocol violation"
  | templateLoad => "Template load failure"
  | collaborator => "Collaborator failure"

/-- The category of the kind. -/
def category : Kind → Category
  | invalidNumber | unterminatedString | unterminatedComment | unterminatedRegex
  | unterminatedVerbatim | unexpectedCharacter | unexpectedEof => .lexical
  | unexpectedToken | unclosedBlock | mismatchedCloseTag | duplicateElse | elseAfterDefault
  | invalidAssignment | invalidSyntax => .syntactic
  | unresolvedName => .nameResolution
  | notAnObject | notCallable | notIterable | invalidTemplateName | disallowedExpression => .type
  | protocolViolation => .protocolViolation
  | templateLoad => .load
  | collaborator => .external

end Kind

end Stencil.Error

import ForeignBridge.TypeExpr.Reader
import ForeignBridge.Version.Requirement

/-! # Errors of settings

Why settings cannot be used, and the wording of each case. -/

namespace ForeignBridge

/-- Why settings cannot be used. -/
inductive SettingsError where
  /-- The text is no document of the expected shape; a type expression in it may be the reason. -/
  | malformed (embedded : Option TypeSyntaxError)
  /-- There is no text to read. -/
  | unreadable
  /-- The depth limit of conversions is zero. -/
  | zeroDepth
  /-- The requirement on the foreign library cannot be read. -/
  | malformedRequirement (text : String)
  /-- A direct call has an empty name. -/
  | namelessCall
  /-- Two direct calls have the same name. -/
  | duplicateCall (name : String)
  /-- A direct call has an empty function path. -/
  | callWithoutFunction (name : String)
deriving DecidableEq, Repr

/-- What is wrong, in words. -/
def SettingsError.message : SettingsError → String
  | .malformed _ => "TOML parse error"
  | .unreadable => "I/O error"
  | .zeroDepth => "invalid bridge configuration: conversions.max-depth must be at least 1"
  | .malformedRequirement text =>
    s!"invalid bridge configuration: bridge.library '{text}' is not a version requirement"
  | .namelessCall => "invalid registration configuration: direct call name is required"
  | .duplicateCall name => s!"invalid registration configuration: direct call '{name}' is declared twice"
  | .callWithoutFunction name =>
    s!"invalid registration configuration: direct call '{name}' has no function path"

/-- The foreign library does not satisfy the requirement of the settings. -/
structure IncompatibleLibrary where
  required : Version.Requirement
  found : Version
deriving DecidableEq, Repr

/-- What is wrong, in words. -/
def IncompatibleLibrary.message (e : IncompatibleLibrary) : String :=
  s!"foreign library version {e.found.render} does not satisfy '{e.required.render}'"

end ForeignBridge

import ItemExpr.Number.Binary64

/-!
# Why a literal cannot be formatted
-/

namespace ItemExpr

/-- A reason why a literal cannot be formatted. -/
inductive FormatError where
  /-- A text that should be a decimal is none. -/
  | notDecimal (text : String)
  /-- A floating point number has no decimal. -/
  | notFinite (x : Binary64)
  /-- A specifier is no numeric format. -/
  | unknownNumberFormat (spec : String)
  /-- A specifier for integers is applied to another number. -/
  | integerRequired (spec kind : String)
  /-- A specifier is applied to a literal that has no formats. -/
  | notFormattable (spec kind : String)
  /-- A pattern of percent directives holds one that is not known. -/
  | unknownDirective (pattern : String)
  /-- A quoted part of a date pattern has no end. -/
  | unterminatedQuote (pattern : String)
  /-- A date pattern asks for more than seven digits of a second's fraction. -/
  | tooManyFractionDigits (pattern : String)
deriving DecidableEq, Repr

namespace FormatError

def subject : FormatError → String
  | .notDecimal _ | .notFinite _ => "number"
  | .unknownNumberFormat _ | .integerRequired .. | .notFormattable .. => "format specifier"
  | .unknownDirective _ | .unterminatedQuote _ | .tooManyFractionDigits _ => "date format"

def detail : FormatError → String
  | .notDecimal text => s!"'{text}' is not a decimal number"
  | .notFinite x => s!"{String.ofList x.text} cannot be stored in DynamoDB"
  | .unknownNumberFormat spec => s!"'{spec}' is not a recognized numeric format"
  | .integerRequired spec kind => s!"'{spec}' requires an integer, got a {kind} value"
  | .notFormattable spec kind => s!"'{spec}' cannot be applied to a {kind} value"
  | .unknownDirective pattern => s!"'{pattern}' is not a valid strftime pattern"
  | .unterminatedQuote pattern => s!"unterminated literal in '{pattern}'"
  | .tooManyFractionDigits pattern => s!"at most 7 fraction digits are supported in '{pattern}'"

end FormatError

end ItemExpr

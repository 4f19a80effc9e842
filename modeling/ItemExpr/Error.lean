import ItemExpr.Entity.Validation
import ItemExpr.Expr
import ItemExpr.Format.Error
import ItemExpr.Placeholder

/-!
# Errors

Why a request cannot be compiled, by cause. Each error has one message.
-/

namespace ItemExpr

inductive KeyScope where
  | table
  | index (name : String)
deriving DecidableEq, Repr

inductive KeyFault where
  | notKeyAttribute (attributeName : String) (scope : KeyScope)
  | partitionNotCompared (attributeName : String)
  | partitionOperator (op : Comparison)
  | sortKeyOnly (construct : String)
  | nestedPath
deriving DecidableEq, Repr

/-- What is wrong with a template. Offsets count the bytes in front of a brace. -/
inductive TemplateFault where
  | unmatchedBrace (offset : Nat)
  | unterminatedMarker (offset : Nat)
  | malformedMarker (marker : String)
  | missingArgument (index supplied : Nat)
deriving DecidableEq, Repr

inductive Unsupported where
  | format (error : FormatError)
  | template (fault : TemplateFault)
  | indexWithoutEntity (name : String)
  | undeclaredIndex (name tableName : String)
  | rawText
  | inKeyCondition (construct : String)
  | arithmeticCondition (op : BinaryOp)
  | notBoolean (kind : String)
  | unknownDescriptor (descriptor : String)
  | noCandidates
  | unknownCall (method : String) (count : Nat)
  | sizeArgument
  | notOperand (name : String)
  | rootlessPath (path : Path)
  | updateOperator (op : BinaryOp)
  | unknownUpdateCall (method : String)
  | notUpdateValue (kind : String)
  | repeatedTarget (target : Path)
  | noKeyCondition
  | noCondition
  | noAction
deriving DecidableEq, Repr

/-- Why a request cannot be compiled. -/
inductive Error where
  | unmappedProperty (tableName logicalName : String)
  | invalidKey (logicalName : String) (fault : KeyFault)
  | keyUpdate (logicalName : String) (role : KeyRole)
  | unsupported (cause : Unsupported)
  | encryptionRequired (logicalName : String)
  | conflict (clash : Conflict)
  | encoderFailed (logicalName reason : String)
  | invalidEntity (error : EntityError)
deriving DecidableEq, Repr

def KeyScope.display : KeyScope → String
  | .table => "the table"
  | .index name => s!"index '{name}'"

def KeyFault.reason : KeyFault → String
  | .notKeyAttribute attributeName scope => s!"'{attributeName}' is not a key attribute of {scope.display}"
  | .partitionNotCompared attributeName => s!"a key condition must compare '{attributeName}' with ="
  | .partitionOperator op => s!"the partition key only supports =, not {op.symbol}"
  | .sortKeyOnly construct => s!"{construct} only applies to the sort key"
  | .nestedPath => "nested paths cannot appear in a key condition"

def TemplateFault.subject : TemplateFault → String
  | .unmatchedBrace _ | .unterminatedMarker _ => "format template"
  | .malformedMarker _ | .missingArgument .. => "format argument"

def TemplateFault.detail : TemplateFault → String
  | .unmatchedBrace offset => s!"unmatched '\x7d' at offset {offset}"
  | .unterminatedMarker offset => s!"unterminated argument marker at offset {offset}"
  | .malformedMarker marker => s!"'\x7b{marker}\x7d' is not a positional argument marker"
  | .missingArgument index supplied => s!"\x7b{index}\x7d is out of range, {supplied} argument(s) supplied"

namespace Unsupported

def subject : Unsupported → String
  | .format error => error.subject
  | .template fault => fault.subject
  | .indexWithoutEntity _ | .undeclaredIndex .. => "index"
  | .rawText => "raw expression"
  | .inKeyCondition construct => construct
  | .arithmeticCondition op | .updateOperator op => op.name
  | .notBoolean kind | .notUpdateValue kind => kind
  | .unknownDescriptor _ => "attribute_type"
  | .noCandidates => "IN"
  | .unknownCall method _ | .unknownUpdateCall method => method
  | .sizeArgument => "size"
  | .notOperand name => name
  | .rootlessPath _ => "path"
  | .repeatedTarget _ | .noAction => "update"
  | .noKeyCondition => "query"
  | .noCondition => "condition"

def detail : Unsupported → String
  | .format error => error.detail
  | .template fault => fault.detail
  | .indexWithoutEntity name => s!"'{name}' needs entity metadata"
  | .undeclaredIndex name tableName => s!"'{name}' is not declared on '{tableName}'"
  | .rawText => "raw expressions are disabled by configuration"
  | .inKeyCondition _ => "not allowed in a key condition"
  | .arithmeticCondition _ => "arithmetic is only allowed in update values"
  | .notBoolean _ => "not a boolean expression"
  | .unknownDescriptor descriptor => s!"'{descriptor}' is not a DynamoDB type descriptor"
  | .noCandidates => "needs at least one candidate"
  | .unknownCall _ count => s!"unrecognized method call with {count} argument(s)"
  | .sizeArgument => "expects a single path"
  | .notOperand _ => "not usable as an operand"
  | .rootlessPath path => s!"'{path.display}' does not start with a property name"
  | .updateOperator _ => "only + and - are allowed in update values"
  | .unknownUpdateCall _ => "not a recognized update operator"
  | .notUpdateValue _ => "not usable as an update value"
  | .repeatedTarget target => s!"'{target.display}' is targeted by more than one action"
  | .noKeyCondition => "a key condition is required"
  | .noCondition => "at least one condition is required"
  | .noAction => "at least one update action is required"

end Unsupported

def Error.message : Error → String
  | .unmappedProperty tableName logicalName =>
    s!"property '{logicalName}' is not mapped on entity '{tableName}'"
  | .invalidKey logicalName fault => s!"invalid key condition on '{logicalName}': {fault.reason}"
  | .keyUpdate logicalName role => s!"cannot update '{logicalName}': it is the {role.display} key"
  | .unsupported cause => s!"unsupported {cause.subject}: {cause.detail}"
  | .encryptionRequired logicalName =>
    s!"property '{logicalName}' is encrypted but no field encryptor is configured"
  | .conflict clash =>
    s!"placeholder {clash.token} is already bound to {clash.existing}, cannot rebind to {clash.attempted}"
  | .encoderFailed logicalName reason => s!"encoding value for '{logicalName}' failed: {reason}"
  | .invalidEntity error => error.message

end ItemExpr

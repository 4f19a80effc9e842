import ItemExpr.Entity.Wire
import ItemExpr.Request.Guard
import ItemExpr.Request.Query
import ItemExpr.Request.Scan
import ItemExpr.Request.Standalone
import ItemExpr.Request.Update
import ItemExpr.Proofs.Condition.Meaning
import ItemExpr.Proofs.Encryption.Condition
import ItemExpr.Proofs.Encryption.Update
import ItemExpr.Proofs.Request.KeyCondition
import ItemExpr.Proofs.Condition.KeyLanguage
import ItemExpr.Proofs.Binding.Complete
import ItemExpr.Proofs.Request.KeyTerms
import ItemExpr.Proofs.Condition.Conjuncts
import ItemExpr.Proofs.Request.PartitionPin
import ItemExpr.Proofs.Condition.KeyTests
import ItemExpr.Proofs.Request.KeyAcceptance
import ItemExpr.Proofs.Condition.Acceptance
import ItemExpr.Proofs.Update.Grammar
import ItemExpr.Proofs.Update.Lexing
import ItemExpr.Proofs.Update.Reading
import ItemExpr.Proofs.Update.Arithmetic
import ItemExpr.Proofs.Update.Acceptance
import ItemExpr.Proofs.Request.Placeholders
import ItemExpr.Proofs.Request.Progress
import ItemExpr.Proofs.Request.Recipe
import ItemExpr.Proofs.Placeholder.Emission
import ItemExpr.Proofs.Placeholder.Layout
import ItemExpr.Proofs.Placeholder.NameRuns
import ItemExpr.Proofs.Placeholder.ValueRuns
import ItemExpr.Proofs.Literals
import ItemExpr.Proofs.Condition.Joining
import ItemExpr.Proofs.Request.Accumulation
import ItemExpr.Proofs.Request.Failure
import ItemExpr.Proofs.Request.Outcome
import ItemExpr.Proofs.Request.Clauses
import ItemExpr.Proofs.Request.Legibility
import ItemExpr.Proofs.Request.Conjunction
import ItemExpr.Proofs.Request.KeyProtection
import ItemExpr.Proofs.Request.Literals
import ItemExpr.Proofs.Request.Targets
import ItemExpr.Proofs.Template.Reading
import ItemExpr.Proofs.Template.Compilation
import ItemExpr.Proofs.Wire.Base64
import ItemExpr.Proofs.Wire.AttributeValue
import ItemExpr.Proofs.Text.Padding
import ItemExpr.Proofs.Text.Order
import ItemExpr.Proofs.Decimal.Rounding
import ItemExpr.Proofs.Decimal.Spelling
import ItemExpr.Proofs.Decimal.Grammar
import ItemExpr.Proofs.Decimal.Groups
import ItemExpr.Proofs.Decimal.Significant
import ItemExpr.Proofs.Decimal.Writing
import ItemExpr.Proofs.Format.Hexadecimal
import ItemExpr.Proofs.Format.Shown
import ItemExpr.Proofs.Format.DigitPlaces
import ItemExpr.Proofs.Format.StoredNumber
import ItemExpr.Proofs.Format.Rounded
import ItemExpr.Proofs.Format.Scientific
import ItemExpr.Proofs.Format.DigitPattern
import ItemExpr.Proofs.Value.Parts
import ItemExpr.Proofs.Value.Rendering
import ItemExpr.Proofs.Time.Calendar
import ItemExpr.Proofs.Time.Timestamps
import ItemExpr.Proofs.Format.DatePattern
import ItemExpr.Proofs.Format.DateLetters
import ItemExpr.Proofs.Format.DateSpecifier
import ItemExpr.Proofs.Wire.Survival

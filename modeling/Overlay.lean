import Overlay.ByteSize
import Overlay.Command.Arguments
import Overlay.Command.Grammar
import Overlay.Command.Invocation
import Overlay.Command.Listing
import Overlay.Command.Report
import Overlay.Command.Run
import Overlay.Command.Switch
import Overlay.Configuration.Basic
import Overlay.Configuration.Diagnostic
import Overlay.Configuration.Layered
import Overlay.Configuration.Load
import Overlay.Dictionary
import Overlay.Error
import Overlay.Expansion
import Overlay.FileTree
import Overlay.Layer.Basic
import Overlay.Layer.Defaults
import Overlay.Layer.Site
import Overlay.Layer.Source
import Overlay.Log.Event
import Overlay.Log.Filter
import Overlay.Main
import Overlay.Number.Binary
import Overlay.Number.Numeral
import Overlay.Number.Shortest
import Overlay.Placeholder
import Overlay.Proofs.ByteSize.Exactness
import Overlay.Proofs.ByteSize.Grammar
import Overlay.Proofs.Command.Arguments
import Overlay.Proofs.Command.Audit
import Overlay.Proofs.Command.Choice
import Overlay.Proofs.Command.Load
import Overlay.Proofs.Configuration.Address
import Overlay.Proofs.Configuration.BufferSize
import Overlay.Proofs.Configuration.Change
import Overlay.Proofs.Configuration.Independence
import Overlay.Proofs.Configuration.Integer
import Overlay.Proofs.Configuration.Layered
import Overlay.Proofs.Configuration.Precedence
import Overlay.Proofs.Configuration.Validity
import Overlay.Proofs.Configuration.Workers
import Overlay.Proofs.Dictionary
import Overlay.Proofs.Expansion.Concatenation
import Overlay.Proofs.Expansion.Cursor
import Overlay.Proofs.Expansion.Depth
import Overlay.Proofs.Expansion.Evidence
import Overlay.Proofs.Expansion.Idempotence
import Overlay.Proofs.Expansion.Indirection
import Overlay.Proofs.Expansion.Inquiry
import Overlay.Proofs.Expansion.Locality
import Overlay.Proofs.Expansion.Meaning
import Overlay.Proofs.Expansion.Memo
import Overlay.Proofs.Expansion.Outcome
import Overlay.Proofs.Expansion.Reference
import Overlay.Proofs.Expansion.Step
import Overlay.Proofs.Expansion.Trail
import Overlay.Proofs.Items
import Overlay.Proofs.Layer
import Overlay.Proofs.Layer.Environment
import Overlay.Proofs.Number
import Overlay.Proofs.Number.Arithmetic
import Overlay.Proofs.Number.Decimal
import Overlay.Proofs.Number.Numeral
import Overlay.Proofs.Number.Rounding
import Overlay.Proofs.Placeholder
import Overlay.Proofs.Reading
import Overlay.Proofs.Rule
import Overlay.Proofs.Text
import Overlay.Proofs.Text.Octets
import Overlay.Proofs.Toml.Flatten
import Overlay.Proofs.Toml.Order
import Overlay.Proofs.Toml.ReadBack
import Overlay.Property
import Overlay.Reading
import Overlay.Rule
import Overlay.Text.Alphanumeric
import Overlay.Text.Basic
import Overlay.Text.Pattern
import Overlay.Text.Quoted
import Overlay.Text.Split
import Overlay.Text.Utf8
import Overlay.Text.Visible
import Overlay.Toml.DateKey
import Overlay.Toml.DateTime
import Overlay.Toml.Document
import Overlay.Toml.Draft
import Overlay.Toml.Outline
import Overlay.Toml.Quoted
import Overlay.Toml.Scalar
import Overlay.Toml.Value
import Overlay.Variants
import Overlay.World

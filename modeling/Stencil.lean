import Stencil.Text.Blank
import Stencil.Text.Letter
import Stencil.Text.Case
import Stencil.Text.Quoted
import Stencil.Text.Literal
import Stencil.Decimal.Printer
import Stencil.Decimal.Reader
import Stencil.Value.Basic
import Stencil.Value.Writer
import Stencil.Value.Reader
import Stencil.Pattern.Basic
import Stencil.Pattern.Match
import Stencil.Pattern.Scan
import Stencil.Pattern.Fault
import Stencil.Pattern.Token
import Stencil.Pattern.Escape
import Stencil.Pattern.Reader
import Stencil.Wire.Checked
import Stencil.Wire.Record
import Stencil.Timestamp
import Stencil.Condition.Basic
import Stencil.Condition.Evaluation
import Stencil.Document.Basic
import Stencil.Profile.Basic
import Stencil.Rule.Basic
import Stencil.Template.Basic
import Stencil.Placeholder.Catalog
import Stencil.Collaborator
import Stencil.InvalidInput
import Stencil.Section.Authoring
import Stencil.Template.Extraction
import Stencil.Document.Replacement
import Stencil.Document.Evolution
import Stencil.Profile.Merging
import Stencil.Profile.Store
import Stencil.Profile.Validation
import Stencil.Chat.Basic
import Stencil.Chat.Tasks
import Stencil.Document.Filling
import Stencil.Session
import Stencil.Settings.Basic
import Stencil.Settings.Factory
import Stencil.Settings.Logging
import Stencil.Pattern.Progress
import Stencil.Proofs.Rule.Skipping
import Stencil.Proofs.Pattern.Scanning
import Stencil.Proofs.Pattern.Literal
import Stencil.Proofs.Rule.Insertion
import Stencil.Proofs.Document.Filling
import Stencil.Proofs.Section.Marker
import Stencil.Proofs.Section.WellMarked
import Stencil.Proofs.Section.Refinement
import Stencil.Proofs.Template.Extraction
import Stencil.Proofs.Condition.Composition
import Stencil.Proofs.Profile.Usage
import Stencil.Proofs.Profile.History
import Stencil.Proofs.Profile.Merging
import Stencil.Proofs.Profile.Deduplication
import Stencil.Proofs.Pattern.Finding
import Stencil.Proofs.Pattern.Language
import Stencil.Proofs.Profile.Categories
import Stencil.Proofs.Text.Respacing
import Stencil.Proofs.Placeholder.Joining
import Stencil.Proofs.Placeholder.Tokens
import Stencil.Proofs.Placeholder.Matchers
import Stencil.Proofs.Template.FillIns
import Stencil.Proofs.Template.Preparation
import Stencil.Proofs.Document.Leftover
import Stencil.Proofs.Rule.RoundTrip
import Stencil.Proofs.Document.Evolution
import Stencil.Proofs.Document.Addressing
import Stencil.Proofs.Document.Ordering
import Stencil.Proofs.Section.Authoring
import Stencil.Proofs.Document.Written
import Stencil.Proofs.Rule.Accounts
import Stencil.Proofs.Rule.LastWrite
import Stencil.Proofs.Text.Lowering
import Stencil.Proofs.Profile.Collisions
import Stencil.Proofs.Profile.Independence
import Stencil.Proofs.Profile.Settling
import Stencil.Proofs.Section.Extending
import Stencil.Proofs.Template.Additions
import Stencil.Proofs.Profile.Distance
import Stencil.Proofs.Profile.Likeness
import Stencil.Proofs.Profile.Lookup
import Stencil.Proofs.Document.Autofill
import Stencil.Proofs.Section.Listing
import Stencil.Proofs.Condition.Naming
import Stencil.Proofs.Placeholder.Normalizing
import Stencil.Proofs.Template.BrokenNames
import Stencil.Proofs.Section.Removing
import Stencil.Proofs.Text.Occurring
import Stencil.Proofs.Profile.Mail
import Stencil.Proofs.Profile.Telephone
import Stencil.Proofs.Rule.Repeating
import Stencil.Proofs.Settings.Overrides

import Stencil.Text.Quoted

/-! Inputs that are missing or cannot be used at all, and what is said about them. -/

namespace Stencil

/-- Why an input is refused as a whole. -/
inductive InvalidInput
  | noContent
  | noBindings
  | noRules
  | noDocument
  | noAdaptations
  | noTemplate
  | noProfile
  | noDocumentName
  | noSnapshots
  | noData
  | noSectionName
  | noSectionContent
  | badSectionName (name : String)
  | unknownCategory (shown : String)
  | unknownDataType (shown : String)
  deriving DecidableEq

def InvalidInput.message : InvalidInput → String
  | .noContent => "Document content is required"
  | .noBindings => "Bindings are required"
  | .noRules => "Rule list is required"
  | .noDocument => "Document is required"
  | .noAdaptations => "Adaptations are required"
  | .noTemplate => "Template is required"
  | .noProfile => "Profile is required"
  | .noDocumentName => "Document name is required"
  | .noSnapshots => "Snapshot list is required"
  | .noData => "No data provided"
  | .noSectionName => "Section name is required"
  | .noSectionContent => "Section content is required"
  | .badSectionName name => "Invalid section name: " ++ Text.quoted name
  | .unknownCategory shown =>
    "Unknown profile category: " ++ shown ++ ". Valid options: 'personal_info', 'preferences'"
  | .unknownDataType shown => "Unsupported validation type: " ++ shown

end Stencil

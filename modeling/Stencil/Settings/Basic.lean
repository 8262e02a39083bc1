import Stencil.Settings.Path
import Stencil.Wire.Record
import Stencil.Text.Case

/-!
Settings: what can be configured, from given values and the environment.

A given value wins over a variable of the environment, whose name may be in any case, and that wins
over the standard value.
-/

namespace Stencil

open Wire

/-- The configuration of all parts. -/
structure Settings where
  apiKey : String := ""
  baseUrl : String := "https://openrouter.ai/api/v1"
  model : String := "openai/gpt-4o"
  /-- In seconds. -/
  timeout : Float := 60
  generationTemperature : Float := 0.3
  detectorType : String := "openai"
  generatorType : String := "openai"
  suggesterType : String := "openai"
  detectorMaxChars : Int := 10000
  generatorContextChars : Int := 1000
  similarityThreshold : Float := 0.8
  logLevel : String := "INFO"
  logDir : Option String := none

namespace Settings

def upperText (v : Value) : Checked String :=
  (fun s => String.ofList (Text.upper s.toList)) <$> text v

/-- The name of a strategy: in lower case, without blanks at its ends. -/
def strategyName (v : Value) : Checked String :=
  (fun s => String.ofList (Text.lower (Text.strip s.toList))) <$> text v

def positiveFloat (v : Value) : Checked Float := require (fun x => !(x ≤ 0)) .greaterThan (float v)

/-- A number from zero to `most`. -/
def floatUpTo (most : Float) (v : Value) : Checked Float :=
  require (fun x => !(x < 0)) .greaterThanEqual
    (require (fun x => !(most < x)) .lessThanEqual (float v))

def positiveWhole (v : Value) : Checked Int := require (fun i => 0 < i) .greaterThan (whole v)

/-- A whole number that is not negative. -/
def wholeFromZero (v : Value) : Checked Int := require (fun i => 0 ≤ i) .greaterThanEqual (whole v)

/-- A path in its plain form, or null. -/
def path? : Value → Checked (Option String)
  | .null => .valid none
  | .text s => .valid (some (normalizePath s))
  | _ => .fail .pathType

def check (fields : Fields) : Checked Settings :=
  let standard : Settings := {}
  Settings.mk
    <$> optional text standard.apiKey (.same "openai_api_key") fields
    <*> optional text standard.baseUrl (.same "openai_base_url") fields
    <*> optional text standard.model (.same "openai_model") fields
    <*> optional positiveFloat standard.timeout (.same "openai_timeout") fields
    <*> optional (floatUpTo 2) standard.generationTemperature (.same "generation_temperature")
      fields
    <*> optional strategyName standard.detectorType (.same "detector_type") fields
    <*> optional strategyName standard.generatorType (.same "generator_type") fields
    <*> optional strategyName standard.suggesterType (.same "rule_suggester_type") fields
    <*> optional positiveWhole standard.detectorMaxChars (.same "detector_max_chars") fields
    <*> optional wholeFromZero standard.generatorContextChars (.same "generator_context_chars")
      fields
    <*> optional (floatUpTo 1) standard.similarityThreshold (.same "similarity_threshold") fields
    <*> optional upperText standard.logLevel (.same "log_level") fields
    <*> optional path? standard.logDir (.same "log_dir") fields

/-- The fields that the environment gives; of names that differ in case only the last counts. -/
def environmentFields (environment : Fields) : Fields :=
  environment.foldl
    (fun t e => t.set (String.ofList (Text.lower e.1.toList)) e.2) []

/-- The settings from given values over the environment. -/
def ofSources (given environment : Fields) : Checked Settings :=
  check ((environmentFields environment).override given)

/-- The settings with their names in the environment. -/
def toValue (s : Settings) : Value :=
  .object [("openai_api_key", .text s.apiKey), ("openai_base_url", .text s.baseUrl),
    ("openai_model", .text s.model), ("openai_timeout", .float s.timeout),
    ("generation_temperature", .float s.generationTemperature),
    ("detector_type", .text s.detectorType), ("generator_type", .text s.generatorType),
    ("rule_suggester_type", .text s.suggesterType),
    ("detector_max_chars", .int s.detectorMaxChars),
    ("generator_context_chars", .int s.generatorContextChars),
    ("similarity_threshold", .float s.similarityThreshold), ("log_level", .text s.logLevel),
    ("log_dir", textOrNull s.logDir)]

end Settings

end Stencil

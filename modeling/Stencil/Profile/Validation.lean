import Stencil.Wire.Record
import Stencil.Text.Letter
import Stencil.Text.Case
import Stencil.Pattern.Scan
import Stencil.InvalidInput

/-! Checking what a user entered: addresses of mail, telephone numbers, addresses and companies. -/

namespace Stencil.Validation

open Text

/-- What a check found. The confidence is counted in hundredths. -/
structure Finding where
  isValid : Bool := false
  errors : List String := []
  suggestions : List String := []
  confidence : Nat := 0
  deriving DecidableEq

def Finding.toValue (f : Finding) : Value :=
  .object [("isValid", .bool f.isValid), ("errors", Wire.textList f.errors),
    ("suggestions", Wire.textList f.suggestions),
    ("confidence", .float (Decimal.nearest f.confidence (-2)))]

def Finding.missing (what : String) : Finding := { errors := [what ++ " is required"] }

def withoutFinalLineFeed (s : List Char) : List Char :=
  if s.getLast? = some '\n' then s.dropLast else s

/-! ## Mail -/

/-- The characters that are neither blanks nor at signs. -/
def mailChar : Pattern.CharSet := ⟨[.kind .blank, .range 64 64], true, .exact⟩

/-- A name, an at sign and a domain with a dot inside, up to the end of the last line. -/
def mailPattern : Pattern :=
  .all [.anchor .textStart, .many1 mailChar, .exactly ['@'], .many1 mailChar, .exactly ['.'],
    .many1 mailChar, .anchor .lastLineEnd]

def isEmail (s : List Char) : Bool := mailPattern.matchesStart s

/-- What lies behind the first at sign. -/
def domainOf (email : List Char) : List Char := ((splitFirst? '@' email).map (·.2)).getD []

def commonEndings : List String := [".com", ".org", ".net", ".edu", ".gov", ".co"]

/-- Misspelled domains and what they should be. -/
def domainTypos : Table String :=
  [("gmial.com", "gmail.com"), ("gmal.com", "gmail.com"), ("gamil.com", "gmail.com"),
   ("hotmial.com", "hotmail.com"), ("yaho.com", "yahoo.com"), ("yahoocom", "yahoo.com"),
   ("outlok.com", "outlook.com")]

/-- The address with a misspelled domain put right, wherever the domain stands in it. -/
def emailSuggestions (email : List Char) : List String :=
  let domain := domainOf email
  match domainTypos.lookup (String.ofList domain) with
  | some right => [String.ofList (replaceAll domain right.toList email)]
  | none => []

def checkEmail (email : String) : Finding :=
  let s := email.toList
  let valid := isEmail s
  let common := commonEndings.any fun e => e.toList.isSuffixOf (domainOf s)
  let suggestions := emailSuggestions s
  { isValid := valid
    errors := if valid then [] else ["Invalid email format"]
    suggestions := suggestions
    confidence :=
      (if valid then 50 else 0) + (if common then 30 else 0) +
        (if suggestions.isEmpty then 20 else 0) }

/-! ## Telephone -/

/-- Ten digits as a number with an area code. -/
def areaCode (digits : List Char) : String :=
  "(" ++ String.ofList (digits.take 3) ++ ") " ++ String.ofList ((digits.drop 3).take 3) ++ "-" ++
    String.ofList (digits.drop 6)

/-- Ways to write a number: ten digits, or eleven with the country code one. -/
def phoneSuggestions (digits : List Char) : List String :=
  if digits.length = 10 then [areaCode digits]
  else
    match digits with
    | '1' :: rest => if rest.length = 10 then ["+1 " ++ areaCode rest] else []
    | _ => []

/-- Checks a telephone number, of which only the digits count. -/
def checkPhone (phone : String) : Finding :=
  let digits := phone.toList.filter isDecimal
  let valid := 10 ≤ digits.length && digits.length ≤ 15
  { isValid := valid
    errors := if valid then [] else ["Invalid phone number length"]
    suggestions := phoneSuggestions digits
    confidence := if valid then 80 else 20 }

/-! ## Address -/

def stateCodes : List String :=
  ["AL", "AK", "AZ", "AR", "CA", "CO", "CT", "DE", "FL", "GA", "HI", "ID", "IL", "IN", "IA", "KS",
   "KY", "LA", "ME", "MD", "MA", "MI", "MN", "MS", "MO", "MT", "NE", "NV", "NH", "NJ", "NM", "NY",
   "NC", "ND", "OH", "OK", "OR", "PA", "RI", "SC", "SD", "TN", "TX", "UT", "VT", "VA", "WA", "WV",
   "WI", "WY"]

def addressParts : List String := ["address", "city", "state", "zip_code"]

/-- A postal code: five digits, and four more behind a dash or not. One line feed may follow. -/
def isPostalCode (s : List Char) : Bool :=
  let s := withoutFinalLineFeed s
  (s.take 5).length = 5 && (s.take 5).all isDecimal &&
    match s.drop 5 with
    | [] => true
    | '-' :: rest => rest.length = 4 && rest.all isDecimal
    | _ => false

/-- A part of an address, or null. The postal code may go by a second name. -/
def addressPart (fields : Table Value) (name : String) : Value :=
  let found :=
    if name = "zip_code" then (fields.lookup name).or (fields.lookup "zipCode")
    else fields.lookup name
  found.getD .null

def checkAddress (fields : Table Value) : Finding :=
  if !(addressPart fields "address").isGiven then .missing "Address"
  else
    let missing := addressParts.filter fun part => !(addressPart fields part).isGiven
    let code := (addressPart fields "zip_code").display.toList
    let state := String.ofList (upper (addressPart fields "state").display.toList)
    { isValid := missing.isEmpty
      errors := missing.map ("Missing " ++ ·)
      confidence :=
        if missing.isEmpty then
          60 + (if isPostalCode code then 20 else 0) + (if stateCodes.contains state then 20 else 0)
        else 0 }

/-! ## Company -/

def companySuffixes : List String := ["Inc", "LLC", "Corp", "Ltd", "GmbH", "Co", "Corporation"]

def checkCompany (company : String) : Finding :=
  let known := companySuffixes.any fun suffix => (" " ++ suffix).toList.isSuffixOf company.toList
  { isValid := true
    suggestions := if known then [] else companySuffixes.map fun suffix => company ++ ", " ++ suffix
    confidence := if known then 80 else 50 }

/-! ## All kinds -/

/-- Checks a field as a text, if it is given. -/
def checkGiven (what : String) (check : String → Finding) (v : Option Value) : Finding :=
  match v with
  | some v => if v.isGiven then check v.display else .missing what
  | none => .missing what

def check (data : Table Value) (kind : Value) : Except InvalidInput Finding :=
  match kind with
  | .text "email" => .ok (checkGiven "Email" checkEmail (data.lookup "email"))
  | .text "phone" => .ok (checkGiven "Phone number" checkPhone (data.lookup "phone"))
  | .text "address" => .ok (checkAddress data)
  | .text "company" => .ok (checkGiven "Company name" checkCompany (data.lookup "company"))
  | v => .error (.unknownDataType v.display)

/-- Checks what a value holds; anything but an object holds nothing. -/
def checkValue (data kind : Value) : Except InvalidInput Finding :=
  match data with
  | .object fields => check fields kind
  | _ => check [] kind

/-! ## Lemmas -/

/-- A text that is not empty is given, and checked as it is. -/
theorem checkGiven_text (what : String) (check : String → Finding) {s : String} (h : s ≠ "") :
    checkGiven what check (some (.text s)) = check s := by
  simp [checkGiven, Value.isGiven, Value.display, h]

end Stencil.Validation

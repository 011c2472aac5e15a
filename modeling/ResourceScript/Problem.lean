import ResourceScript.Json.Basic
import ResourceScript.Script.Token
import ResourceScript.Template.ValueType
import ResourceScript.Text.Quoted

namespace ResourceScript

inductive Problem.Category where
  | grammar
  | template
  | value
  | unsupported
  | resource
  | internal
  deriving DecidableEq, Repr

inductive TemplateFlaw where
  | unreadable (file : Text)
  | rootNotMapping
  | typesNotList
  | typeNotMapping (index : Nat)
  | missing (place key : String)
  | symbolsNotMapping (place : String)
  | symbolValue (place symbol : String)
  | entryNotMapping (place : String) (index : Nat)
  | duplicateEntry (place entry : String)
  | fieldNotMapping (place : String) (index : Nat)
  | duplicateField (place field : String)
  | valueShape (place : String)
  | unknownEntry (place value : String)
  | noValues (field : String)
  | duplicateType (type : String)
  deriving DecidableEq, Repr

namespace TemplateFlaw

def message : TemplateFlaw → Text
  | unreadable file => text "Unable to parse type templates " ++ file
  | rootNotMapping => text "Root of type template file must be an object"
  | typesNotList => text "'types' must be a list"
  | typeNotMapping index => text s!"types[{index}] must be an object"
  | missing place key => text s!"{place}: missing '{key}'"
  | symbolsNotMapping place => text s!"{place}: symbols must be a mapping"
  | symbolValue place symbol => text s!"{place}: symbol '{symbol}' must be an integer or a string"
  | entryNotMapping place index => text s!"{place}: template[{index}] must be an object"
  | duplicateEntry place entry => text s!"{place}: duplicate template entry '{entry}'"
  | fieldNotMapping place index => text s!"{place}: fields[{index}] must be an object"
  | duplicateField place field => text s!"{place}: duplicate field '{field}'"
  | valueShape place => text s!"{place}: values must be names or objects"
  | unknownEntry place value => text s!"{place}: value '{value}' is not in the type template"
  | noValues field => text s!"Field '{field}' declares no values."
  | duplicateType type => text s!"Type '{type}' is defined more than once."

end TemplateFlaw

/-- What a field asks for where a literal is missing. -/
inductive LiteralKind where
  | integer
  | rectangle
  | string
  deriving DecidableEq, Repr

def LiteralKind.describe : LiteralKind → String
  | integer => "an integer literal"
  | rectangle => "4 integer literals"
  | string => "a string literal"

inductive Problem where
  | unterminatedString
  | unexpectedCharacter (c : Char)
  | unexpectedToken (expected : Expectation) (found : Token)
  | expectedDeclaration (found : Token)
  | expectedFieldName (found : Token)
  | expectedLiteral (what : LiteralKind) (field : String) (found : Token)
  | expectedResourceId (field : String) (found : Token)
  | unexpectedMaskTerm (found : Token)
  | malformedMask (field : String) (found : Token)
  | template (flaw : TemplateFlaw)
  | unknownType (type : String) (known : List String)
  | noTypeSelected (known : List String)
  | unknownField (field type : String)
  | unknownDirective (tag field : String)
  | referenceBacking (field : String) (backing : ValueType)
  | maskArity (field : String)
  | maskBacking (field : String) (backing : ValueType)
  | fileBacking (field : String) (backing : ValueType)
  | unknownValueType (field value : String)
  | outOfRange (value : Int) (type : ValueType) (lo hi : Int) (field : String)
  | stringTooLarge (field : String) (length limit : Nat)
  | undefinedSymbol (symbol value : String)
  | symbolNotInteger (symbol field : String)
  | symbolNotString (symbol field : String)
  | maskSymbolNotInteger (symbol : String)
  | duplicateId (id : Int) (type : String)
  | duplicateValue (value : String)
  | unencodable (field encoding reason : String)
  | unsupportedImage (label field : String) (path : Text)
  | unsupportedRaw (field : String)
  | fileMissing (path : Text)
  | fileTooLarge (path : Text) (size : Nat) (limit : Int)
  | pathEscape (path root : Text)
  | writeFailed (path : Text) (reason : String)
  | writeAfterAssembly (value : String) (id : Int)
  | secondAssembly (id : Int)
  | valuesOutsideTemplate (values : List String)
  deriving DecidableEq, Repr

namespace Problem

def category : Problem → Category
  | unterminatedString | unexpectedCharacter _ | unexpectedToken .. | expectedDeclaration _
  | expectedFieldName _ | expectedLiteral .. | expectedResourceId .. | unexpectedMaskTerm _
  | malformedMask .. => .grammar
  | template _ | unknownType .. | noTypeSelected _ | unknownField .. | unknownDirective ..
  | referenceBacking .. | maskArity _ | maskBacking .. | fileBacking .. | unknownValueType .. =>
    .template
  | outOfRange .. | stringTooLarge .. | undefinedSymbol .. | symbolNotInteger ..
  | symbolNotString .. | maskSymbolNotInteger _ | duplicateId .. | duplicateValue _
  | unencodable .. => .value
  | unsupportedImage .. | unsupportedRaw _ => .unsupported
  | fileMissing _ | fileTooLarge .. | pathEscape .. | writeFailed .. => .resource
  | writeAfterAssembly .. | secondAssembly _ | valuesOutsideTemplate _ => .internal

def code : Problem → String
  | unterminatedString | unexpectedCharacter _ => "E_LEX"
  | unexpectedToken .. | expectedDeclaration _ => "E_UNEXPECTED_TOKEN"
  | expectedFieldName _ => "E_EXPECTED_FIELD_NAME"
  | expectedLiteral .. | expectedResourceId .. => "E_EXPECTED_LITERAL"
  | unexpectedMaskTerm _ | malformedMask .. => "E_BITMASK_SYNTAX"
  | template _ => "E_TEMPLATE"
  | unknownType .. | noTypeSelected _ => "E_UNKNOWN_TYPE"
  | unknownField .. => "E_UNKNOWN_FIELD"
  | unknownDirective .. => "E_UNKNOWN_FIELD_TYPE"
  | referenceBacking .. => "E_REFERENCE_BACKING"
  | maskArity _ | maskBacking .. => "E_BITMASK_BACKING"
  | fileBacking .. => "E_FILE_BACKING"
  | unknownValueType .. => "E_UNKNOWN_VALUE_TYPE"
  | outOfRange .. => "E_VALUE_RANGE"
  | stringTooLarge .. => "E_STRING_TOO_LARGE"
  | undefinedSymbol .. => "E_UNDEFINED_SYMBOL"
  | symbolNotInteger .. | symbolNotString .. | maskSymbolNotInteger _ => "E_SYMBOL_TYPE"
  | duplicateId .. => "E_DUP_RESOURCE_ID"
  | duplicateValue _ => "E_DUPLICATE_VALUE"
  | unencodable .. => "E_TEXT_ENCODING"
  | unsupportedImage .. | unsupportedRaw _ => "E_UNSUPPORTED"
  | fileMissing _ => "E_FILE_MISSING"
  | fileTooLarge .. => "E_FILE_TOO_LARGE"
  | pathEscape .. => "E_PATH_ESCAPE"
  | writeFailed .. => "E_WRITE_IO"
  | writeAfterAssembly .. | secondAssembly _ | valuesOutsideTemplate _ => "E_INTERNAL"

def message : Problem → Text
  | unterminatedString => text "Unterminated string literal"
  | unexpectedCharacter c => text "Unexpected character " ++ Text.ofChars (Text.quoted [c])
  | unexpectedToken expected found =>
    text "Expected " ++ expected.describe ++ text " but found " ++ found.describe ++ text "."
  | expectedDeclaration found =>
    text "Expected a resource declaration but found " ++ found.describe ++ text "."
  | expectedFieldName _ => text "Expected an identifier for the field name."
  | expectedLiteral what field _ => text s!"Expected {what.describe} for field '{field}'."
  | expectedResourceId field _ => text s!"The field '{field}' expects a resource id."
  | unexpectedMaskTerm found =>
    text "Unexpected lexeme encountered in bitmask: " ++ found.describe
  | malformedMask field found =>
    text s!"Malformed bitmask for field '{field}': expected '|' or ';' but found " ++
      found.describe ++ text "."
  | template flaw => flaw.message
  | unknownType type _ => text s!"Unknown resource type '{type}'."
  | noTypeSelected _ => text "No resource type selected."
  | unknownField field type => text s!"The field '{field}' is not defined by type '{type}'."
  | unknownDirective tag _ => text s!"Unknown field type: '{tag}'"
  | referenceBacking .. =>
    text "Resource Reference field should be backed by either a DWRD or DQAD value."
  | maskArity field =>
    text s!"The field '{field}' should have only one value due to it being a 'Bitmask'."
  | maskBacking field _ =>
    text s!"The field '{field}' must be backed by either a HBYT, HWRD, HLNG or HQAD value."
  | fileBacking field _ => text s!"Unsupported value type for field '{field}' with a type 'File'."
  | unknownValueType field _ => text s!"Unknown type encountered in field '{field}'."
  | outOfRange value type lo hi field =>
    text s!"Value {value} is outside the range of {type.kindName} ({lo}..{hi}) for field '{field}'."
  | stringTooLarge .. => text "String too large for value type."
  | undefinedSymbol symbol value => text s!"Undefined symbol '{symbol}' for value '{value}'."
  | symbolNotInteger symbol field =>
    text s!"Type mismatch for '{symbol}': field '{field}' expects an integer."
  | symbolNotString symbol field =>
    text s!"Type mismatch for '{symbol}': field '{field}' expects a string."
  | maskSymbolNotInteger symbol => text s!"Type mismatch for '{symbol}' in bitmask."
  | duplicateId id type => text s!"Resource id #{id} is already used by another '{type}' resource."
  | duplicateValue value => text s!"Value '{value}' has already been written."
  | unencodable field encoding reason =>
    text s!"String for field '{field}' cannot be encoded as {encoding}: {reason}."
  | unsupportedImage label _ _ => text s!"{label} types are not currently supported."
  | unsupportedRaw field => text s!"The 'HEXD' type is not directly supported for field '{field}'."
  | fileMissing path => text "File not found: " ++ path
  | fileTooLarge _ size limit => text s!"File too large: {size}>{limit}"
  | pathEscape path _ => text "Path '" ++ path ++ text "' escapes the source root."
  | writeFailed path reason => text "Unable to write " ++ path ++ text s!": {reason}"
  | writeAfterAssembly .. | secondAssembly _ => text "Resource encoder already assembled"
  | valuesOutsideTemplate _ => text "Values written outside of the type template"

def context : Problem → List (String × Json)
  | expectedFieldName found | expectedLiteral _ _ found | expectedResourceId _ found =>
    [("found", .ofString found.text)]
  | unknownType _ known | noTypeSelected known => [("known", .arr (known.map .ofString))]
  | unknownDirective _ field => [("field", .ofString field)]
  | referenceBacking field backing =>
    [("field", .ofString field), ("backing", .ofString backing.name)]
  | maskBacking _ backing | fileBacking _ backing => [("backing", .ofString backing.name)]
  | unknownValueType _ value => [("value", .ofString value)]
  | stringTooLarge field length limit =>
    [("field", .ofString field), ("length", .int length), ("limit", .int limit)]
  | unsupportedImage _ field path => [("field", .ofString field), ("path", .str path)]
  | fileMissing path | fileTooLarge path _ _ | writeFailed path _ => [("path", .str path)]
  | pathEscape _ root => [("root", .str root)]
  | writeAfterAssembly value id => [("slot", .ofString value), ("resource_id", .int id)]
  | secondAssembly id => [("resource_id", .int id)]
  | valuesOutsideTemplate values => [("values", .arr (values.map .ofString))]
  | _ => []

end Problem

end ResourceScript

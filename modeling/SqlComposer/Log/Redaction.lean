import SqlComposer.Value.Basic
import SqlComposer.Text.Word

/-!
# Redaction

The value of a sensitive key is replaced before anything is logged. A key is sensitive when its
first line mentions a password, a token, a secret or an API key, letter case ignored. Mappings
inside mappings are searched; other values are kept as they are.
-/

namespace SqlComposer

/-- A key that cannot be searched. -/
inductive RedactionError
  | octets
  | notText (typeName : Text)
  deriving DecidableEq, Repr

/-- A key that cannot be searched, in words. -/
def RedactionError.message : RedactionError → Text
  | .octets => "cannot use a string pattern on a bytes-like object".toList
  | .notText typeName =>
    "expected string or bytes-like object, got '".toList ++ typeName ++ ['\'']

namespace Redaction

/-- The words that make a key sensitive. -/
def sensitiveWords : List Text :=
  ["password".toList, "token".toList, "api_key".toList, "secret".toList]

/-- What replaces the value of a sensitive key. -/
def redacted : Value :=
  .text "[REDACTED]".toList

/-- Whether a text is a sensitive key. -/
def isSensitive (key : Text) : Bool :=
  let line := key.takeWhile (· != '\n')
  sensitiveWords.any fun word => Text.mentions word line

/-- Whether a value is a sensitive key, if it can be one. -/
def isSensitiveKey (key : Value) : Except RedactionError Bool :=
  match key with
  | .text t | .raw t => .ok (isSensitive t)
  | .octets _ => .error .octets
  | key => .error (.notText key.typeName)

mutual

/-- A value whose key is not sensitive. -/
def redactValue : Value → Except RedactionError Value
  | .map entries => .map <$> redact entries
  | v => .ok v

/-- Entries without the values of sensitive keys. -/
def redact : List (Value × Value) → Except RedactionError (List (Value × Value))
  | [] => .ok []
  | (key, value) :: entries => do
    let value ← if ← isSensitiveKey key then pure redacted else redactValue value
    let entries ← redact entries
    return (key, value) :: entries

end

end Redaction

end SqlComposer

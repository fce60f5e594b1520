import Settlement.Json.Value
import Settlement.Text.Quoted

/-! Values as error messages show them. Text that stands alone is shown as it is, and inside a list
or an object between quotation marks. -/

namespace Settlement

def Number.display : Number → Text
  | .flag true => Text.of "True"
  | .flag false => Text.of "False"
  | .int n => Text.ofInt n
  | .float .nan => Text.of "nan"
  | .float (.infinite false) => Text.of "inf"
  | .float (.infinite true) => Text.of "-inf"
  | .float (.finite s m e) => Text.ofChars (Decimal.ofFinite s m e)

namespace Json.Value

def separated : List Text → Text
  | [] => []
  | [t] => t
  | t :: ts => t ++ Text.of ", " ++ separated ts

mutual

def nested : Value → Text
  | .null => Text.of "None"
  | .bool b => (Number.flag b).display
  | .int n => (Number.int n).display
  | .float x => (Number.float x).display
  | .text t => t.quoted
  | .list items => Text.of "[" ++ separated (nestedItems items) ++ Text.of "]"
  | .object fields => Text.of "\x7b" ++ separated (nestedFields fields) ++ Text.of "\x7d"

def nestedItems : List Value → List Text
  | [] => []
  | v :: vs => nested v :: nestedItems vs

def nestedFields : List (Text × Value) → List Text
  | [] => []
  | (n, v) :: fs => (n.quoted ++ Text.of ": " ++ nested v) :: nestedFields fs

end

def display : Value → Text
  | .text t => t
  | v => nested v

end Json.Value
end Settlement

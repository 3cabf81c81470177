import Foundry.Document.Value
import Foundry.Number.Shortest
import Foundry.Text.Quoted

/-! How a value is shown in a message.

By itself a text or a moment is shown bare (`plain`); inside a list or a table it is shown so that
its kind can be told (`literal`). All other values look the same in both places. -/
namespace Foundry.Value

mutual

/-- The value as it is shown inside another one. -/
def literal : Value → String
  | .null => "None"
  | .bool b => if b then "True" else "False"
  | .int n => toString n
  | .float x => x.text
  | .text s => Text.quoted s
  | .bytes b => Text.quotedBytes b
  | .moment m => m.literal
  | .timestamp seconds nanoseconds => s!"Timestamp(seconds={seconds}, nanoseconds={nanoseconds})"
  | .extension code data => s!"ExtType(code={code}, data={Text.quotedBytes data})"
  | .array items => "[" ++ String.intercalate ", " (literals items) ++ "]"
  | .table entries => "\x7b" ++ String.intercalate ", " (entryLiterals entries) ++ "\x7d"
  | .mapping entries => "\x7b" ++ String.intercalate ", " (pairLiterals entries) ++ "\x7d"

def literals : List Value → List String
  | [] => []
  | item :: rest => literal item :: literals rest

def entryLiterals : List (String × Value) → List String
  | [] => []
  | (key, value) :: rest => (Text.quoted key ++ ": " ++ literal value) :: entryLiterals rest

def pairLiterals : List (Value × Value) → List String
  | [] => []
  | (key, value) :: rest => (literal key ++ ": " ++ literal value) :: pairLiterals rest

end

/-- The value as it is shown by itself. -/
def plain : Value → String
  | .text s => s
  | .moment m => m.text
  | value => value.literal

end Foundry.Value

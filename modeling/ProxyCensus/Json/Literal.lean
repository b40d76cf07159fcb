import ProxyCensus.Decimal.Layout
import ProxyCensus.Json.Basic
import ProxyCensus.Text.Quoted

/-!
# Values in messages

How a value is spelled inside a message: texts in quotes, lists in square brackets, and objects as
quoted keys and values between braces.
-/

namespace ProxyCensus

/-- Numbers in messages are positional from 0.0001 up to below 10 ^ 16; an exponent has at least two
digits. -/
def Decimal.Layout.message : Decimal.Layout := ⟨-4, 15, 2⟩

namespace Json

/-- Texts between an opening and a closing mark, with a comma and a space between them. -/
def enclosed (left right : Char) (parts : List String) : String :=
  String.ofList (left :: (", ".intercalate parts).toList ++ [right])

mutual

/-- The spelling of a value in a message. -/
def literal : Json → String
  | .null => "None"
  | .bool b => if b then "True" else "False"
  | .int n => toString n
  | .float x => Decimal.Layout.message.text x
  | .str s => Text.quoted s
  | .arr items => enclosed '[' ']' (literals items)
  | .obj fields => enclosed '\x7b' '\x7d' (fieldLiterals fields)

def literals : List Json → List String
  | [] => []
  | v :: rest => literal v :: literals rest

def fieldLiterals : List (String × Json) → List String
  | [] => []
  | (key, v) :: rest => (Text.quoted key ++ ": " ++ literal v) :: fieldLiterals rest

end

def display : Json → String
  | .str s => s
  | v => v.literal

end Json

end ProxyCensus

import Mathlib.Data.List.Basic

/-!
# JSON values

Values as a decoder hands them on, and their compact text.  A quoted text is
always longer than the text in it.
-/

inductive JsonNumber where
  | unsigned (value : UInt64)
  | negative (value : Int64)
  | float (bits : UInt64)
deriving DecidableEq

inductive Json where
  | null
  | bool (value : Bool)
  | number (value : JsonNumber)
  | string (text : String)
  | array (items : List Json)
  | object (fields : List (String × Json))

namespace Json

/-- The value of a field. -/
def get? (key : String) : Json → Option Json
  | .object fields => fields.lookup key
  | _ => none

section Text

def hexDigit (nibble : Nat) : Char :=
  if nibble < 10 then Char.ofNat (0x30 + nibble)
  else Char.ofNat (0x57 + nibble)

/-- How a character stands inside quotes. -/
def escape (character : Char) : List Char :=
  match character with
  | '"' => ['\\', '"']
  | '\\' => ['\\', '\\']
  | '\x08' => ['\\', 'b']
  | '\x0c' => ['\\', 'f']
  | '\n' => ['\\', 'n']
  | '\r' => ['\\', 'r']
  | '\t' => ['\\', 't']
  | _ =>
      if character.toNat < 0x20 then
        ['\\', 'u', '0', '0', hexDigit (character.toNat / 16),
          hexDigit (character.toNat % 16)]
      else [character]

def quote (text : String) : String :=
  String.ofList ('"' :: (text.toList.flatMap escape ++ ['"']))

def numberText (floatText : UInt64 → String) : JsonNumber → String
  | .unsigned value => toString value.toNat
  | .negative value => toString value.toInt
  | .float bits => floatText bits

mutual

/-- The compact text of a value.  The text of a float is a parameter. -/
def render (floatText : UInt64 → String) : Json → String
  | .null => "null"
  | .bool true => "true"
  | .bool false => "false"
  | .number value => numberText floatText value
  | .string text => quote text
  | .array items => "[" ++ renderItems floatText items ++ "]"
  | .object fields => "\x7b" ++ renderFields floatText fields ++ "\x7d"

def renderItems (floatText : UInt64 → String) : List Json → String
  | [] => ""
  | [item] => render floatText item
  | item :: rest => render floatText item ++ "," ++ renderItems floatText rest

def renderFields (floatText : UInt64 → String) :
    List (String × Json) → String
  | [] => ""
  | [(key, value)] => quote key ++ ":" ++ render floatText value
  | (key, value) :: rest =>
      quote key ++ ":" ++ render floatText value ++ "," ++
        renderFields floatText rest

end

theorem escape_ne_nil (character : Char) : escape character ≠ [] := by
  unfold escape
  split <;> try simp
  split <;> simp

theorem length_le_flatMap_escape (text : List Char) :
    text.length ≤ (text.flatMap escape).length := by
  induction text with
  | nil => exact Nat.le_refl _
  | cons character rest ih =>
      have some := List.length_pos_iff.mpr (escape_ne_nil character)
      rw [List.flatMap_cons, List.length_append, List.length_cons]
      omega

theorem quote_ne (text : String) : quote text ≠ text := by
  intro same
  have lengths := congrArg (fun other => other.toList.length) same
  have longer := length_le_flatMap_escape text.toList
  simp only [quote, String.toList_ofList, List.length_cons,
    List.length_append, List.length_nil] at lengths
  omega

/-- No value is the string that holds its own text. -/
theorem string_render_ne (floatText : UInt64 → String) (value : Json) :
    .string (render floatText value) ≠ value := by
  cases value with
  | string text =>
      intro same
      rw [render, Json.string.injEq] at same
      exact quote_ne text same
  | null => simp
  | bool value => simp
  | number value => simp
  | array items => simp
  | object fields => simp

end Text

end Json

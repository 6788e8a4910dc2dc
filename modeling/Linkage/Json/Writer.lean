import Linkage.Decimal.Layout
import Linkage.Json.Basic

/-!
# Writing JSON

The compact form: no space, members in the order they stand.  Only the quote, the backslash and
control characters are escaped.
-/

namespace Linkage.Json

/-- Numbers show a point; they are written positionally from `1e-5` up to `1e16`, and what is no
number is null. -/
def numberLayout : Decimal.Layout where
  tie := .toEven
  positional := some (-5, 16)
  pointZero := true
  nan := "null"
  infinity := "null"

/-- The text of a number; what has no number is null. -/
def numberText (x : Float) : String :=
  if x.isNaN || x.isInf then "null" else numberLayout.write x

/-- A hexadecimal digit, in lower case. -/
def hexChar (n : Nat) : Char :=
  if n < 10 then Char.ofNat ('0'.toNat + n) else Char.ofNat ('a'.toNat + (n - 10))

/-- How a character stands in a string. -/
def escapeChar (c : Char) : List Char :=
  match c with
  | '\x22' => ['\\', '\x22']
  | '\\' => ['\\', '\\']
  | '\x08' => ['\\', 'b']
  | '\x0c' => ['\\', 'f']
  | '\n' => ['\\', 'n']
  | '\r' => ['\\', 'r']
  | '\t' => ['\\', 't']
  | c =>
      if c.toNat < 0x20 then
        ['\\', 'u', '0', '0', hexChar (c.toNat / 16), hexChar (c.toNat % 16)]
      else [c]

/-- A string with its quotes. -/
def quote (s : String) : String :=
  "\x22" ++ String.ofList (s.toList.flatMap escapeChar) ++ "\x22"

/-- The compact text of a value. -/
def compact : Json → String
  | null => "null"
  | bool value => if value then "true" else "false"
  | int value => toString value
  | float value => numberText value
  | str value => quote value
  | arr items =>
      "[" ++ ",".intercalate (items.attach.map (fun ⟨item, _⟩ => item.compact)) ++ "]"
  | obj members =>
      "\x7b" ++ ",".intercalate
        (members.attach.map (fun ⟨(key, value), _⟩ => quote key ++ ":" ++ value.compact)) ++ "\x7d"
termination_by json => sizeOf json
decreasing_by
  · have := List.sizeOf_lt_of_mem ‹_›
    simp only [arr.sizeOf_spec]
    omega
  · have := List.sizeOf_lt_of_mem ‹_›
    simp only [Prod.mk.sizeOf_spec] at this
    simp only [obj.sizeOf_spec]
    omega

end Linkage.Json

import Linkage.Decimal.Reading
import Linkage.Json.Basic

/-!
# JSON tokens

`Token.read` cuts a text into tokens, or fails when it meets a character that no token begins with,
a string with a raw control character or an unknown escape, or a number that is badly written.  A
number too large for a double and a string with half a surrogate pair are tokens all the same, which
stand for no value.  The remaining text shrinks with every token, which is why reading ends.
-/

namespace Linkage.Json

/-- A token of a JSON text. -/
inductive Token where
  /-- An opening bracket. -/
  | openArray
  /-- A closing bracket. -/
  | closeArray
  /-- An opening brace. -/
  | openObject
  /-- A closing brace. -/
  | closeObject
  /-- The colon between key and value. -/
  | colon
  /-- The comma between items. -/
  | comma
  /-- A literal name or a number, if it stands for a value. -/
  | atom (value? : Option Json)
  /-- A string, as a value or as a key, if it stands for a text. -/
  | text (value? : Option String)
deriving Inhabited

namespace Token

/-- The characters that may stand between tokens. -/
def isSpace (c : Char) : Bool :=
  c = ' ' || c = '\t' || c = '\n' || c = '\r'

/-- The value of a hexadecimal digit. -/
def hexDigit? (c : Char) : Option Nat :=
  if '0' ≤ c ∧ c ≤ '9' then some (c.toNat - '0'.toNat)
  else if 'a' ≤ c ∧ c ≤ 'f' then some (c.toNat - 'a'.toNat + 10)
  else if 'A' ≤ c ∧ c ≤ 'F' then some (c.toNat - 'A'.toNat + 10)
  else none

/-- The value of four hexadecimal digits. -/
def hexUnit? (a b c d : Char) : Option Nat := do
  let a ← hexDigit? a
  let b ← hexDigit? b
  let c ← hexDigit? c
  let d ← hexDigit? d
  return ((a * 16 + b) * 16 + c) * 16 + d

/-- The character that stands for a one-letter escape. -/
def escaped? (c : Char) : Option Char :=
  match c with
  | '\x22' => some '\x22'
  | '\\' => some '\\'
  | '/' => some '/'
  | 'b' => some '\x08'
  | 'f' => some '\x0c'
  | 'n' => some '\n'
  | 'r' => some '\r'
  | 't' => some '\t'
  | _ => none

/-- Whether a unit is the first half of a surrogate pair. -/
def isHigh (unit : Nat) : Bool := 0xD800 ≤ unit && unit ≤ 0xDBFF

/-- Whether a unit is the second half of a surrogate pair. -/
def isLow (unit : Nat) : Bool := 0xDC00 ≤ unit && unit ≤ 0xDFFF

/-- The character that a surrogate pair stands for. -/
def ofPair (high low : Nat) : Char :=
  Char.ofNat (0x10000 + (high - 0xD800) * 0x400 + (low - 0xDC00))

/-- The characters so far, unless the first half of a surrogate pair stands behind them and what
follows is not the second half. -/
def unlessOpen (high? : Option Nat) (done : Option (List Char)) : Option (List Char) :=
  if high?.isSome then none else done

/-- Read a string behind its opening quote.  The characters so far stand reversed in `done`, which
is none as soon as half a surrogate pair stands alone; `high?` is the first half of a pair if one
has just been read. -/
def readText? (high? : Option Nat) (done : Option (List Char)) :
    List Char → Option (Option String × List Char)
  | [] => none
  | '\x22' :: rest => some ((unlessOpen high? done).map (fun cs => String.ofList cs.reverse), rest)
  | '\\' :: 'u' :: a :: b :: c :: d :: rest =>
      match hexUnit? a b c d with
      | none => none
      | some unit =>
          if isHigh unit then readText? (some unit) (unlessOpen high? done) rest
          else if isLow unit then
            readText? none (do return ofPair (← high?) unit :: (← done)) rest
          else readText? none ((unlessOpen high? done).map (Char.ofNat unit :: ·)) rest
  | '\\' :: c :: rest =>
      match escaped? c with
      | none => none
      | some meant => readText? none ((unlessOpen high? done).map (meant :: ·)) rest
  | c :: rest =>
      if c.toNat < 0x20 ∨ c = '\\' then none
      else readText? none ((unlessOpen high? done).map (c :: ·)) rest

/-- The value of a decimal digit. -/
def digitOf (c : Char) : Nat :=
  c.toNat - '0'.toNat

/-- Read the digits at the front. -/
def readDigits (cs : List Char) : List Nat × List Char :=
  ((cs.takeWhile Char.isDigit).map digitOf, cs.dropWhile Char.isDigit)

/-- Read an exponent behind its mark: the power of ten with its sign. -/
def readExponent? (cs : List Char) : Option (Int × List Char) :=
  let (negative, cs) := match cs with
    | '-' :: rest => (true, rest)
    | '+' :: rest => (false, rest)
    | _ => (false, cs)
  match readDigits cs with
  | ([], _) => none
  | (digits, rest) =>
      let power : Int := (digits.foldl (fun (n : Nat) digit => n * 10 + digit) 0 : Nat)
      some (if negative then -power else power, rest)

/-- The number with these parts; a whole number that fits into 64 bits stays an integer, except that
a negative zero is a double.  None if it is too large for a double. -/
def number? (negative : Bool) (whole fraction : List Nat) (exponent : Option Int) :
    Option Json :=
  let scaled := Decimal.Scaled.ofWhole whole
  let signed (x : Float) : Json := .float (if negative then -x else x)
  if fraction.isEmpty && exponent.isNone && !scaled.full then
    if !negative then some (.int scaled.significand)
    else if 0 < scaled.significand ∧ scaled.significand ≤ Nat.pow 2 63 then
      some (.int (-scaled.significand))
    else some (signed scaled.significand.toUInt64.toFloat)
  else
    let scaled := if fraction.isEmpty then scaled else scaled.andFraction fraction
    let scaled := { scaled with exponent := scaled.exponent + exponent.getD 0 }
    scaled.toFloat?.map signed

/-- Read a number behind its sign. -/
def readNumber? (negative : Bool) (cs : List Char) : Option (Option Json × List Char) :=
  match readDigits cs with
  | ([], _) => none
  | (0 :: _ :: _, _) => none
  | (whole, rest) =>
      let fraction? : Option (List Nat × List Char) := match rest with
        | '.' :: rest => match readDigits rest with
          | ([], _) => none
          | found => some found
        | _ => some ([], rest)
      match fraction? with
      | none => none
      | some (fraction, rest) =>
          let exponent? : Option (Option Int × List Char) := match rest with
            | 'e' :: rest | 'E' :: rest =>
                (readExponent? rest).map (fun found => (some found.1, found.2))
            | _ => some (none, rest)
          match exponent? with
          | none => none
          | some (exponent, rest) =>
              some (number? negative whole fraction exponent, rest)

/-- Read the token at the front of a text that does not begin with space. -/
def readOne? : List Char → Option (Token × List Char)
  | '[' :: rest => some (openArray, rest)
  | ']' :: rest => some (closeArray, rest)
  | '\x7b' :: rest => some (openObject, rest)
  | '\x7d' :: rest => some (closeObject, rest)
  | ':' :: rest => some (colon, rest)
  | ',' :: rest => some (comma, rest)
  | '\x22' :: rest => (readText? none (some []) rest).map (fun found => (text found.1, found.2))
  | 'n' :: 'u' :: 'l' :: 'l' :: rest => some (atom (some .null), rest)
  | 't' :: 'r' :: 'u' :: 'e' :: rest => some (atom (some (.bool true)), rest)
  | 'f' :: 'a' :: 'l' :: 's' :: 'e' :: rest => some (atom (some (.bool false)), rest)
  | '-' :: rest => (readNumber? true rest).map (fun found => (atom found.1, found.2))
  | cs => (readNumber? false cs).map (fun found => (atom found.1, found.2))

/-- Cut a text into tokens; on failure the text that could not be read.  `fuel` bounds the number of
tokens, and the length of the text is enough. -/
def readAll (done : List Token) (cs : List Char) : Nat → Except (List Char) (List Token)
  | 0 => if cs.isEmpty then .ok done.reverse else .error cs
  | fuel + 1 =>
      match cs.dropWhile isSpace with
      | [] => .ok done.reverse
      | rest => match readOne? rest with
        | none => .error rest
        | some (token, rest) => readAll (token :: done) rest fuel

/-- The tokens of a text, or the rest of it from the first fault on. -/
def read (cs : List Char) : Except (List Char) (List Token) :=
  readAll [] cs (cs.length + 1)

end Token

end Linkage.Json

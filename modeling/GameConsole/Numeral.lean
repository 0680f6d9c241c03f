/-! Numerals in base ten and sixteen: writing them, and reading unsigned ones below a limit. -/

namespace GameConsole.Numeral

/-- Lower-case hexadecimal digits, with zeros in front up to `width` digits. -/
def hexDigits (width n : Nat) : List Char :=
  let digits := Nat.toDigits 16 n
  List.replicate (width - digits.length) '0' ++ digits

/-- `0x` and at least `width` lower-case hexadecimal digits. -/
def hexPadded (width n : Nat) : String := "0x" ++ String.ofList (hexDigits width n)

def hex (n : Nat) : String := hexPadded 1 n

/-- `0x` and upper-case hexadecimal digits. -/
def hexUpper (n : Nat) : String := "0x" ++ String.ofList ((Nat.toDigits 16 n).map Char.toUpper)

inductive ReadError
  | empty
  | invalidDigit
  | tooLarge
deriving DecidableEq

def ReadError.message : ReadError → String
  | empty => "cannot parse integer from empty string"
  | invalidDigit => "invalid digit found in string"
  | tooLarge => "number too large to fit in target type"

/-- The value of a digit of either case, if it is one in the base. -/
def digitValue? (base : Nat) (c : Char) : Option Nat :=
  let value? :=
    if '0' ≤ c ∧ c ≤ '9' then some (c.toNat - '0'.toNat)
    else if 'a' ≤ c ∧ c ≤ 'z' then some (c.toNat - 'a'.toNat + 10)
    else if 'A' ≤ c ∧ c ≤ 'Z' then some (c.toNat - 'A'.toNat + 10)
    else none
  value?.filter (· < base)

/-- Reads digits from the left. The first digit that is invalid, or that takes the value to the
limit, decides the error. -/
def readDigits (base limit : Nat) : Nat → List Char → Except ReadError Nat
  | acc, [] => .ok acc
  | acc, c :: cs =>
    match digitValue? base c with
    | none => .error .invalidDigit
    | some d =>
      let next := acc * base + d
      if next < limit then readDigits base limit next cs else .error .tooLarge

/-- Reads an unsigned numeral below `limit`. One plus sign may stand in front of the digits. -/
def read (base limit : Nat) : List Char → Except ReadError Nat
  | [] => .error .empty
  | ['+'] => .error .invalidDigit
  | '+' :: cs => readDigits base limit 0 cs
  | cs => readDigits base limit 0 cs

def readDecimal (limit : Nat) (s : String) : Except ReadError Nat := read 10 limit s.toList

/-- Reads a word: hexadecimal after `0x`, else decimal. -/
def readWord (s : String) : Except ReadError UInt32 :=
  let value :=
    match s.toList with
    | '0' :: 'x' :: cs => read 16 UInt32.size cs
    | cs => read 10 UInt32.size cs
  value.map UInt32.ofNat

end GameConsole.Numeral

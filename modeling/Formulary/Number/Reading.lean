/-
  Reading a number from text.  A number is an optional sign before decimal
  digits with an optional point and exponent, or before one of the words for
  infinity and for what is not a number.

  * `Decimal.ofText?`: the decimal a text without a sign denotes, up to digits
    that cannot matter and with exponents cut off where they are beyond use;
  * `Number.ofText?`: the number a whole text denotes.
-/
import Formulary.Number.Decimal

namespace Formulary

namespace Decimal

/-- The value of a run of decimal digits. -/
def ofDigits (digits : List Char) : Nat :=
  digits.foldl (fun n c => 10 * n + (c.toNat - '0'.toNat)) 0

/-- How many digits of a number are read one by one.  Numbers and the values
halfway between two of them have fewer, so of the digits that follow it only
matters whether all of them are zeros. -/
def digitsRead : Nat := 800

/-- A run of digits times a power of ten.  If one of the digits that are not read
one by one is not zero, a single digit stands for them all: the decimal is rounded
as the whole run would be. -/
def ofRun (digits : List Char) (exponent : Int) : Decimal :=
  let (read, rest) := (digits.dropWhile fun c => c == '0').splitAt digitsRead
  if rest.all fun c => c == '0' then ⟨ofDigits read, exponent + rest.length⟩
  else ⟨10 * ofDigits read + 1, exponent + rest.length - 1⟩

/-- An exponent that has grown to this is complete, whatever digits follow. -/
def exponentReach : Nat := 2 ^ (16 : Nat)

/-- The size of an exponent: its digits are taken in until it is complete. -/
def exponentSize (digits : List Char) : Nat :=
  digits.foldl (fun n c => if n < exponentReach then 10 * n + (c.toNat - '0'.toNat) else n) 0

/-- The exponent that ends a number: nothing, or `e` before digits with an
optional sign. -/
def exponentOf? : List Char → Option Int
  | [] => some 0
  | c :: rest =>
    if c = 'e' || c = 'E' then
      let (negative, digits) := match rest with
        | '-' :: digits => (true, digits)
        | '+' :: digits => (false, digits)
        | digits => (false, digits)
      if digits.isEmpty || !digits.all Char.isDigit then none
      else some (if negative then -(exponentSize digits : Int) else exponentSize digits)
    else none

/-- Digits with an optional point, at least one digit in all, and an exponent. -/
def ofText? (text : List Char) : Option Decimal :=
  let whole := text.takeWhile Char.isDigit
  let (places, rest) := match text.dropWhile Char.isDigit with
    | '.' :: rest => (rest.takeWhile Char.isDigit, rest.dropWhile Char.isDigit)
    | rest => ([], rest)
  if whole.isEmpty && places.isEmpty then none
  else (exponentOf? rest).map fun e => ofRun (whole ++ places) (e - places.length)

end Decimal

namespace Number

/-- The words that stand for a number, in any case. -/
def ofWord? (negative : Bool) (text : List Char) : Option Number :=
  let word := text.map Char.toLower
  if word = "inf".toList || word = "infinity".toList then some (infinity negative)
  else if word = "nan".toList then some (notANumber negative)
  else none

/-- A number without its sign. -/
def ofUnsigned? (negative : Bool) (text : List Char) : Option Number :=
  (ofWord? negative text).or ((Decimal.ofText? text).map (ofDecimal negative))

/-- The number a text denotes. -/
def ofText? (text : String) : Option Number :=
  match text.toList with
  | '-' :: rest => ofUnsigned? true rest
  | '+' :: rest => ofUnsigned? false rest
  | rest => ofUnsigned? false rest

end Number
end Formulary

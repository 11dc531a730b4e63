/-
  What scalars without quotes stand for.

  * `Yaml.naturalOf?`, `Yaml.negativeOf?`, `Yaml.floatOf?`: numbers;
  * `Yaml.ofWord?`: the value of a scalar without quotes and without a tag;
  * `Yaml.ofTagged?`: the value of a scalar with a tag.
-/
import Formulary.Number.Reading
import Formulary.Yaml
import Formulary.Yaml.Scalar

namespace Formulary.Yaml

/-! ## Constants -/

def isNullWord (s : String) : Bool := ["null", "Null", "NULL", "~"].contains s

def booleanOf? (s : String) : Option Bool :=
  if ["true", "True", "TRUE"].contains s then some true
  else if ["false", "False", "FALSE"].contains s then some false
  else none

/-! ## Integers -/

/-- The number that digits denote, at least one. -/
def digitsOf? (base : Nat) (digits : List Char) : Option Nat :=
  if digits.isEmpty then none
  else digits.foldlM (fun n c =>
    (hexDigit? c).bind fun d => if d < base then some (base * n + d) else none) 0

/-- Digits after a base, or decimal digits. -/
def unsignedOf? : List Char → Option Nat
  | '0' :: 'x' :: digits => digitsOf? 16 digits
  | '0' :: 'o' :: digits => digitsOf? 8 digits
  | '0' :: 'b' :: digits => digitsOf? 2 digits
  | digits => digitsOf? 10 digits

/-- Digits with a zero in front of others, which are no number. -/
def isPadded : List Char → Bool
  | '0' :: c :: rest => (c :: rest).all Char.isDigit
  | _ => false

/-- A number without a minus sign. -/
def naturalOf? (s : String) : Option Nat :=
  let digits := match s.toList with
    | '+' :: digits => digits
    | digits => digits
  if isPadded digits then none else unsignedOf? digits

/-- A number with a minus sign. -/
def negativeOf? (s : String) : Option Int :=
  match s.toList with
  | '-' :: digits => if isPadded digits then none else (unsignedOf? digits).map fun n => -n
  | _ => none

/-- The integers that values can hold: those of 64 bits, with or without a sign. -/
def fits (n : Int) : Bool := -2 ^ (63 : Nat) ≤ n && n < 2 ^ (64 : Nat)

/-- The integers that are recognised: those of 128 bits, with or without a sign. -/
def isKnown (n : Int) : Bool := -2 ^ (127 : Nat) ≤ n && n < 2 ^ (128 : Nat)

/-- An integer that is recognised, whether or not a value can hold it. -/
def integerOf? (s : String) : Option Int :=
  (((naturalOf? s).map Int.ofNat).or (negativeOf? s)).filter isKnown

/-- The value of an integer. -/
def ofInteger? (n : Int) : Option Yaml := if fits n then some (.integer n) else none

/-! ## Other numbers -/

/-- The words for infinities and for what is no number. -/
def specialFloats : List (String × Number) :=
  [(".inf", Number.infinity false), (".Inf", Number.infinity false),
   (".INF", Number.infinity false), ("+.inf", Number.infinity false),
   ("+.Inf", Number.infinity false), ("+.INF", Number.infinity false),
   ("-.inf", Number.infinity true), ("-.Inf", Number.infinity true),
   ("-.INF", Number.infinity true), (".nan", Number.notANumber false),
   (".NaN", Number.notANumber false), (".NAN", Number.notANumber false)]

/-- A number that need not be an integer.  Digits never denote an infinity. -/
def floatOf? (s : String) : Option Number :=
  (specialFloats.lookup s).or ((Number.ofText? s).filter Number.isFinite)

/-- A text without its sign. -/
def unsigned : List Char → List Char
  | '+' :: rest | '-' :: rest => rest
  | rest => rest

/-! ## Scalars -/

/-- The value of a scalar without quotes. -/
def ofWord? (s : String) : Option Yaml :=
  if s.isEmpty || isNullWord s then some .null
  else match booleanOf? s with
    | some b => some (.boolean b)
    | none => match integerOf? s with
      | some n => ofInteger? n
      | none =>
        if isPadded (unsigned s.toList) then some (.text s)
        else some (((floatOf? s).map .float).getD (.text s))

/-- The start of the tags that every reader knows. -/
def coreTag : String := "tag:yaml.org,2002:"

/-- The value of a scalar with a tag.  A tag that names a kind of values makes one
of that kind, or there is none. -/
def ofTagged? (tag s : String) : Option Yaml :=
  if tag = coreTag ++ "bool" then (booleanOf? s).map .boolean
  else if tag = coreTag ++ "int" then (integerOf? s).bind ofInteger?
  else if tag = coreTag ++ "float" then (floatOf? s).map .float
  else if tag = coreTag ++ "null" then if isNullWord s then some .null else none
  else some (.text s)

/-- Whether a text makes up a tag of its own. -/
def isLocalTag (tag : String) : Bool := tag.toList.head? == some '!'

/-- The value of a scalar, for which a tag that the text makes up does not count. -/
def ofScalar? (tag? : Option String) (style : Style) (s : String) : Option Yaml :=
  match tag?.filter (!isLocalTag ·) with
  | some tag => ofTagged? tag s
  | none => if style = .plain then ofWord? s else some (.text s)

end Formulary.Yaml

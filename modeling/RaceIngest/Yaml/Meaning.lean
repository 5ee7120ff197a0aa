import RaceIngest.Binary.Rounding
import RaceIngest.Decimal.Digits
import RaceIngest.Yaml.Node

/-!
# What scalars mean

Where a document does not say by quotes or a tag what a scalar is, its look decides: null, a truth
value, an integer, a real number, and otherwise a text.

Integers may have a plus sign, and a prefix for hexadecimal, octal or binary digits. Digits after
a leading zero write a text. An integer has to fit 64 bits; one that does not, but fits 128, has no
meaning at all, and one beyond that is a real number. Real numbers are the decimals within the
range of the 64-bit format, infinities and the absence of a number by name; a decimal beyond that
range is a text.

A node can carry a tag of the document's own, one that begins with an exclamation mark. No reader
here knows such tags, so where the meaning of a node matters they are refused.

## Main definitions

* `Meaning`, `Meaning.ofPlain?` and `Meaning.ofScalar?`,
* `unsigned?`, the natural number that a plain text writes,
* `Document.meaning`, which makes sure that all parts of a node have a meaning.
-/

namespace RaceIngest.Yaml

open Binary Decimal Text

-- Powers are those of the core library, also where algebra is imported.
attribute [local instance (high)] instPowNat

/-- What a scalar means. -/
inductive Meaning where
  | null
  | bool (b : Bool)
  | natural (n : Nat)
  /-- An integer written with a minus sign, by its absolute value. -/
  | negative (n : Nat)
  | real
  | text (s : String)
  deriving DecidableEq, Repr

/-! ## Integers -/

/-- Whether a text begins with a sign. -/
def startsSigned : List Char → Bool
  | c :: _ => c = '+' || c = '-'
  | [] => false

/-- A text without a plus sign in front. -/
def dropPlus : List Char → List Char
  | '+' :: cs => cs
  | cs => cs

/-- A text without a sign in front. -/
def dropSign : List Char → List Char
  | c :: cs => if c = '+' ∨ c = '-' then cs else c :: cs
  | [] => []

/-- Whether a text is a row of digits with a superfluous zero in front, after an optional sign. -/
def hasLeadingZero (cs : List Char) : Bool :=
  match dropSign cs with
  | '0' :: c :: rest => (c :: rest).all Char.isDigit
  | _ => false

/-- The number that an unsigned literal writes: decimal digits without a superfluous zero, or
digits after the prefix of another base. -/
def magnitude? : List Char → Option Nat
  | '0' :: 'x' :: cs => Hex.based? 16 cs
  | '0' :: 'o' :: cs => Hex.based? 8 cs
  | '0' :: 'b' :: cs => Hex.based? 2 cs
  | cs => if hasLeadingZero cs then none else Hex.based? 10 cs

/-- The natural number below `bound` that a plain text writes. -/
def unsigned? (bound : Nat) (cs : List Char) : Option Nat :=
  (magnitude? (dropPlus cs)).filter (· < bound)

/-- The absolute value of at most `bound` of an integer that a plain text writes with a minus
sign. -/
def negative? (bound : Nat) : List Char → Option Nat
  | '-' :: cs => (magnitude? cs).filter (· ≤ bound)
  | _ => none

/-- The meaning of a text that looks like an integer: `some none` for an integer that has none. -/
def integer? (cs : List Char) : Option (Option Meaning) :=
  match unsigned? (2 ^ (64 : Nat)) cs, negative? (2 ^ (63 : Nat)) cs with
  | some n, _ => some (some (.natural n))
  | none, some n => some (some (.negative n))
  | none, none =>
    if (unsigned? (2 ^ (128 : Nat)) cs).isSome || (negative? (2 ^ (127 : Nat)) cs).isSome then some none else none

/-! ## Real numbers -/

/-- The power of ten after a mantissa. -/
def exponent? : List Char → Option Int
  | [] => some 0
  | mark :: cs =>
    if mark = 'e' ∨ mark = 'E' then
      match cs with
      | '-' :: digits => (Digits.number? digits).map fun n => -(n : Int)
      | '+' :: digits => (Digits.number? digits).map Int.ofNat
      | digits => (Digits.number? digits).map Int.ofNat
    else none

/-- How far the decimal point of a finite 64-bit number can stand right of its first digit. -/
def maxPlaces : Int := 309

/-- Whether digits times a power of ten lie within the range of the 64-bit format. -/
def isFinite (digits : Digits) (exponent : Int) : Bool :=
  let significant := digits.dropWhile (· = 0)
  let places := significant.length + exponent
  significant.isEmpty || decide (places < maxPlaces) ||
    decide (places = maxPlaces) &&
      (Format.double.round (Digits.value significant * 10 ^ exponent.toNat)
        (10 ^ (-exponent).toNat)).isSome

/-- Whether a text writes a decimal within the range of the 64-bit format, after an optional minus
sign. -/
def isDecimal (cs : List Char) : Bool :=
  let unsigned :=
    match cs with
    | '-' :: rest => rest
    | rest => rest
  let (whole, rest) := Digits.takeChars unsigned
  let (fraction, rest) :=
    match rest with
    | '.' :: rest => Digits.takeChars rest
    | rest => ([], rest)
  !(whole.isEmpty && fraction.isEmpty) &&
    (exponent? rest).any fun e => isFinite (whole ++ fraction) (e - fraction.length)

/-- Whether a text writes a real number. -/
def isReal (cs : List Char) : Bool :=
  let unsigned := dropPlus cs
  !(cs.head? == some '+' && startsSigned unsigned) &&
    ([".inf", ".Inf", ".INF"].contains (String.ofList unsigned) ||
      ["-.inf", "-.Inf", "-.INF", ".nan", ".NaN", ".NAN"].contains (String.ofList cs) ||
      isDecimal unsigned)

/-! ## Scalars -/

/-- Whether a text writes null. -/
def isNull (s : String) : Bool := ["null", "Null", "NULL", "~"].contains s

/-- The truth value that a text writes. -/
def truth? (s : String) : Option Bool :=
  if ["true", "True", "TRUE"].contains s then some true
  else if ["false", "False", "FALSE"].contains s then some false
  else none

/-- The meaning of a plain scalar by its look. -/
def Meaning.ofPlain? (s : String) : Option Meaning :=
  if s.isEmpty || isNull s then some .null
  else
    match truth? s, integer? s.toList with
    | some b, _ => some (.bool b)
    | none, some meaning => meaning
    | none, none => some (if !hasLeadingZero s.toList && isReal s.toList then .real else .text s)

/-- Whether a tag is one of the document's own. -/
def isOwnTag (tag : List UInt8) : Bool :=
  match tag with
  | mark :: name => mark == 0x21 && (Utf8.decode? name).isSome
  | [] => false

/-- The bytes of a tag of the standard, by its name. -/
def standardTag (name : String) : List UInt8 := Utf8.encode ("tag:yaml.org,2002:" ++ name).toList

/-- The meaning of a scalar by its tag, or else by its look unless it is quoted or a block. A
standard tag has to fit the text; of a scalar with another tag the text remains. -/
def Meaning.ofScalar? (tag : Option (List UInt8)) (s : String) (style : ScalarStyle) :
    Option Meaning :=
  let byLook := if style = .plain then ofPlain? s else some (.text s)
  match tag with
  | none => byLook
  | some tag =>
    if isOwnTag tag then none
    else if tag = standardTag "bool" then (truth? s).map .bool
    else if tag = standardTag "int" then (integer? s.toList).bind id
    else if tag = standardTag "float" then if isReal s.toList then some .real else none
    else if tag = standardTag "null" then if isNull s then some .null else none
    else if tag.head? = some 0x21 then byLook
    else some (.text s)

/-- Whether a node has a tag of the document's own. -/
def Node.hasOwnTag (node : Node) : Bool := node.properties.tag.any isOwnTag

/-- The meaning of a node, nothing for a collection. References are followed everywhere in it, it
is nested at most `depth` deep, and all its parts have a meaning. -/
def Document.meaning (d : Document) (depth : Nat) (node : Node) : Following (Option Meaning) := do
  let node ← d.follow node
  match depth, node with
  | _, .scalar p s style => (Meaning.ofScalar? p.tag s style).map some
  | depth + 1, .sequence _ items =>
    guard (!node.hasOwnTag)
    items.forM fun item => discard (d.meaning depth item)
    return none
  | depth + 1, .mapping _ entries =>
    guard (!node.hasOwnTag)
    entries.forM fun (key, value) => do
      discard (d.meaning depth key)
      discard (d.meaning depth value)
    return none
  | _, _ => failure

end RaceIngest.Yaml

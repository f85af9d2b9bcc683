import ThreeMove.Serial.Datum

/-!
# Stored data as JSON text

Reads the data model from JSON.  Only a number that is written as an integer without a sign
counts as a natural number: one with a fraction or an exponent is data of another kind, even
if its value is whole.  The text is first cut into tokens, and the tokens are then read as a
tree.
-/

namespace ThreeMove

namespace Json

inductive Token where
  | openList
  | closeList
  | openRecord
  | closeRecord
  | colon
  | comma
  | text (codes : List Nat)
  | number (n : Nat)
  /-- Any other number, or a word. -/
  | other
deriving DecidableEq, Repr

namespace Token

def blank (c : Char) : Bool :=
  [32, 9, 10, 13].contains c.toNat

/-- The token of a single character. -/
def ofMark? (c : Char) : Option Token :=
  [(91, openList), (93, closeList), (123, openRecord), (125, closeRecord), (58, colon),
    (44, comma)].lookup c.toNat

/-- The code that a letter stands for behind a backslash. -/
def escape? (c : Char) : Option Nat :=
  [(34, 34), (92, 92), (47, 47), (98, 8), (102, 12), (110, 10), (114, 13), (116, 9)].lookup
    c.toNat

def hexDigit? (c : Char) : Option Nat :=
  if 48 ≤ c.toNat ∧ c.toNat ≤ 57 then some (c.toNat - 48)
  else if 65 ≤ c.toNat ∧ c.toNat ≤ 70 then some (c.toNat - 55)
  else if 97 ≤ c.toNat ∧ c.toNat ≤ 102 then some (c.toNat - 87)
  else none

/-- Four hexadecimal digits, most significant first. -/
def hexCode? (a b c d : Char) : Option Nat := do
  return 4096 * (← hexDigit? a) + 256 * (← hexDigit? b) + 16 * (← hexDigit? c) + (← hexDigit? d)

/-- The codes up to the closing quote, and what comes behind it. -/
def readText : List Char → Option (List Nat × List Char)
  | [] => none
  | c :: rest =>
      if c.toNat = 34 then some ([], rest)
      else if c.toNat = 92 then
        match rest with
        | 'u' :: a :: b :: c :: d :: rest => do
            let code ← hexCode? a b c d
            let (codes, rest) ← readText rest
            return (code :: codes, rest)
        | letter :: rest => do
            let code ← escape? letter
            let (codes, rest) ← readText rest
            return (code :: codes, rest)
        | [] => none
      else if c.toNat < 32 then none
      else do
        let (codes, rest) ← readText rest
        return (c.toNat :: codes, rest)

/-- Drops at least one digit. -/
def skipDigits? (cs : List Char) : Option (List Char) :=
  if (cs.takeWhile Char.isDigit).isEmpty then none else some (cs.dropWhile Char.isDigit)

/-- Drops the digits of an integer; only zero itself starts with a zero. -/
def skipInteger? : List Char → Option (List Char)
  | '0' :: rest => some rest
  | cs => skipDigits? cs

/-- Drops a point and the digits behind it, if there is a point. -/
def skipFraction? : List Char → Option (List Char)
  | '.' :: rest => skipDigits? rest
  | cs => some cs

/-- Drops an exponent, if there is one. -/
def skipExponent? : List Char → Option (List Char)
  | c :: rest =>
      if c = 'e' ∨ c = 'E' then
        match rest with
        | '+' :: rest => skipDigits? rest
        | '-' :: rest => skipDigits? rest
        | rest => skipDigits? rest
      else some (c :: rest)
  | [] => some []

def isInteger (cs : List Char) : Bool :=
  skipInteger? cs == some []

/-- A number without its sign. -/
def isUnsigned (cs : List Char) : Bool :=
  (skipInteger? cs).bind (fun cs => (skipFraction? cs).bind skipExponent?) == some []

/-- A number, or one of the three words. -/
def ofWord? (cs : List Char) : Option Token :=
  if isInteger cs then
    some (number (cs.foldl (fun n c => 10 * n + (c.toNat - 48)) 0))
  else
    match cs with
    | '-' :: digits => if isUnsigned digits then some other else none
    | _ =>
        if isUnsigned cs || ["true", "false", "null"].contains (String.ofList cs) then some other
        else none

/-- A number or a word ends before a blank or a mark. -/
def inWord (c : Char) : Bool :=
  !blank c && (ofMark? c).isNone

/-- The tokens of the text.  Each costs at least one character, so the number of characters
is enough for `fuel`. -/
def cut : Nat → List Char → Option (List Token)
  | _, [] => some []
  | 0, _ :: _ => none
  | fuel + 1, c :: rest =>
      if blank c then cut fuel rest
      else if c.toNat = 34 then do
        let (codes, rest) ← readText rest
        return text codes :: (← cut fuel rest)
      else
        match ofMark? c with
        | some mark => do return mark :: (← cut fuel rest)
        | none => do
            let word ← ofWord? ((c :: rest).takeWhile inWord)
            return word :: (← cut fuel ((c :: rest).dropWhile inWord))

end Token

/-- The text of these codes.  A pair of surrogates is one character, and one alone is none. -/
def nameOf? : List Nat → Option (List Char)
  | [] => some []
  | code :: rest =>
      if code < 55296 ∨ 57344 ≤ code then do return Char.ofNat code :: (← nameOf? rest)
      else
        match rest with
        | low :: rest =>
            if code < 56320 ∧ 56320 ≤ low ∧ low < 57344 then do
              let c := Char.ofNat (65536 + 1024 * (code - 55296) + (low - 56320))
              return c :: (← nameOf? rest)
            else none
        | [] => none

mutual

/-- A value and the tokens behind it. -/
def value : Nat → List Token → Option (Datum × List Token)
  | _ + 1, .openList :: .closeList :: rest => some (.list [], rest)
  | fuel + 1, .openList :: rest => do
      let (items, rest) ← items fuel rest
      return (.list items, rest)
  | _ + 1, .openRecord :: .closeRecord :: rest => some (.record [], rest)
  | fuel + 1, .openRecord :: rest => do
      let (fields, rest) ← fields fuel rest
      return (.record fields, rest)
  | _, .number n :: rest => some (.number n, rest)
  | _, .text codes :: rest => do
      let _ ← nameOf? codes
      return (.other, rest)
  | _, .other :: rest => some (.other, rest)
  | _, _ => none

def items : Nat → List Token → Option (List Datum × List Token)
  | 0, _ => none
  | fuel + 1, tokens => do
      match ← value fuel tokens with
      | (item, .closeList :: rest) => return ([item], rest)
      | (item, .comma :: rest) =>
          let (others, rest) ← items fuel rest
          return (item :: others, rest)
      | _ => none

/-- Of several fields with one name the last counts. -/
def fields : Nat → List Token → Option (List (String × Datum) × List Token)
  | fuel + 1, .text codes :: .colon :: rest => do
      let name := String.ofList (← nameOf? codes)
      match ← value fuel rest with
      | (field, .closeRecord :: rest) => return ([(name, field)], rest)
      | (field, .comma :: rest) =>
          let (others, rest) ← fields fuel rest
          if others.any fun other => other.1 == name then return (others, rest)
          else return ((name, field) :: others, rest)
      | _ => none
  | _, _ => none

end

end Json

/-- The data of a JSON text.  Two steps for every token are enough to read the tree. -/
def Datum.ofJson? (text : String) : Option Datum := do
  let tokens ← Json.Token.cut text.length text.toList
  match ← Json.value (2 * tokens.length) tokens with
  | (datum, []) => return datum
  | _ => none

end ThreeMove

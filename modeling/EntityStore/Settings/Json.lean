import EntityStore.Text.Digits

/-!
# Settings text

The syntax in which settings are written: JSON.  `Json.read?` accepts a text that is one value with
nothing but white space around it.

Numbers keep their spelling (`Numeral`) and texts keep their escapes (`TextPiece`), because what
they may be depends on who reads them: a numeral that no number type can hold, or half of a
surrogate pair, does no harm in a member that nobody asks for.
-/

namespace EntityStore

/-- A number as it is spelled. -/
structure Numeral where
  /-- Is there a minus sign? -/
  negative : Bool
  /-- The digits before the point. -/
  whole : List Nat
  /-- The digits after the point, if there is one. -/
  fraction : Option (List Nat)
  /-- The sign and the digits of the exponent, if there is one; true is minus. -/
  exponent : Option (Bool × List Nat)
  deriving DecidableEq, Repr

/-- A part of a text: a character as it is, or a sixteen-bit unit that is written by its number. -/
inductive TextPiece where
  | plain (c : Char)
  | unit (code : Nat)
  deriving DecidableEq, Repr

/-- A value of settings text. -/
inductive Json where
  | null
  | bool (b : Bool)
  | number (n : Numeral)
  | text (pieces : List TextPiece)
  | array (items : List Json)
  | object (members : List (List TextPiece × Json))

namespace TextPiece

/-- Is a unit the first of a surrogate pair? -/
def isHighSurrogate (code : Nat) : Bool := 0xD800 ≤ code && code < 0xDC00

/-- Is a unit the second of a surrogate pair? -/
def isLowSurrogate (code : Nat) : Bool := 0xDC00 ≤ code && code < 0xE000

/-- The characters of a text, none when half of a surrogate pair stands alone. -/
def decode? : List TextPiece → Option (List Char)
  | [] => some []
  | plain c :: rest => (decode? rest).map (c :: ·)
  | [unit code] =>
    if isHighSurrogate code || isLowSurrogate code then none else some [Char.ofNat code]
  | unit code :: unit next :: rest =>
    if isHighSurrogate code then
      if isLowSurrogate next then
        let c := Char.ofNat (0x10000 + (code - 0xD800) * 0x400 + (next - 0xDC00))
        (decode? rest).map (c :: ·)
      else none
    else if isLowSurrogate code then none
    else (decode? (unit next :: rest)).map (Char.ofNat code :: ·)
  | unit code :: rest =>
    if isHighSurrogate code || isLowSurrogate code then none
    else (decode? rest).map (Char.ofNat code :: ·)

end TextPiece

namespace Json

/-- The white space of settings text. -/
def isBlank (c : Char) : Bool := c = ' ' || c = '\n' || c = '\t' || c = '\r'

/-- The text from its first character that is not white space. -/
def skipBlank (cs : List Char) : List Char := cs.dropWhile isBlank

/-- The number of four hexadecimal digits. -/
def hexUnit? (a b c d : Char) : Option Nat := Text.ofRun? 16 Text.hexDigit? [a, b, c, d]

/-- The character of a short escape. -/
def shortEscape? : Char → Option Char
  | '"' => some '"'
  | '\\' => some '\\'
  | '/' => some '/'
  | 'b' => some '\x08'
  | 'f' => some '\x0c'
  | 'n' => some '\n'
  | 'r' => some '\r'
  | 't' => some '\t'
  | _ => none

/-- The pieces of a text up to its closing quote, and what follows the quote. -/
def readPieces : List Char → Option (List TextPiece × List Char)
  | [] => none
  | '"' :: rest => some ([], rest)
  | '\\' :: 'u' :: a :: b :: c :: d :: rest => do
    let code ← hexUnit? a b c d
    let (pieces, rest) ← readPieces rest
    some (.unit code :: pieces, rest)
  | '\\' :: c :: rest => do
    let c ← shortEscape? c
    let (pieces, rest) ← readPieces rest
    some (.plain c :: pieces, rest)
  | c :: rest =>
    if c = '\\' ∨ c.toNat < 0x20 then none
    else do
      let (pieces, rest) ← readPieces rest
      some (.plain c :: pieces, rest)

/-- The digits at the start of a text, and what follows them. -/
def readDigits : List Char → List Nat × List Char
  | [] => ([], [])
  | c :: rest =>
    match Text.decimalDigit? c with
    | none => ([], c :: rest)
    | some d =>
      let (ds, rest) := readDigits rest
      (d :: ds, rest)

/-- The digits at the start of a text, of which there is at least one. -/
def readSomeDigits (cs : List Char) : Option (List Nat × List Char) :=
  match readDigits cs with
  | ([], _) => none
  | found => some found

/-- The digits of an integer: no zero stands before another digit. -/
def readWhole (cs : List Char) : Option (List Nat × List Char) :=
  match readDigits cs with
  | ([], _) => none
  | (0 :: _ :: _, _) => none
  | found => some found

/-- The digits after a point, if a point comes next. -/
def readFraction : List Char → Option (Option (List Nat) × List Char)
  | '.' :: rest => (readSomeDigits rest).map fun (ds, rest) => (some ds, rest)
  | cs => some (none, cs)

/-- The exponent, if one comes next. -/
def readExponent : List Char → Option (Option (Bool × List Nat) × List Char)
  | c :: rest =>
    if c = 'e' ∨ c = 'E' then
      let (negative, rest) :=
        match rest with
        | '-' :: rest => (true, rest)
        | '+' :: rest => (false, rest)
        | rest => (false, rest)
      (readSomeDigits rest).map fun (ds, rest) => (some (negative, ds), rest)
    else some (none, c :: rest)
  | [] => some (none, [])

/-- The number at the start of a text, and what follows it. -/
def readNumeral (cs : List Char) : Option (Numeral × List Char) := do
  let (negative, cs) :=
    match cs with
    | '-' :: rest => (true, rest)
    | cs => (false, cs)
  let (whole, cs) ← readWhole cs
  let (fraction, cs) ← readFraction cs
  let (exponent, cs) ← readExponent cs
  some (⟨negative, whole, fraction, exponent⟩, cs)

mutual

/-- The value at the start of a text, and what follows it; the fuel bounds the calls. -/
def readValue : Nat → List Char → Option (Json × List Char)
  | 0, _ => none
  | fuel + 1, cs =>
    match skipBlank cs with
    | 'n' :: 'u' :: 'l' :: 'l' :: rest => some (.null, rest)
    | 't' :: 'r' :: 'u' :: 'e' :: rest => some (.bool true, rest)
    | 'f' :: 'a' :: 'l' :: 's' :: 'e' :: rest => some (.bool false, rest)
    | '"' :: rest => (readPieces rest).map fun (pieces, rest) => (.text pieces, rest)
    | '[' :: rest =>
      match skipBlank rest with
      | ']' :: rest => some (.array [], rest)
      | rest => (readItems fuel rest).map fun (items, rest) => (.array items, rest)
    | '\x7b' :: rest =>
      match skipBlank rest with
      | '\x7d' :: rest => some (.object [], rest)
      | rest => (readMembers fuel rest).map fun (members, rest) => (.object members, rest)
    | cs => (readNumeral cs).map fun (n, rest) => (.number n, rest)

/-- The items of an array that has some, up to its end. -/
def readItems : Nat → List Char → Option (List Json × List Char)
  | 0, _ => none
  | fuel + 1, cs => do
    let (item, rest) ← readValue fuel cs
    match skipBlank rest with
    | ',' :: rest => do
      let (items, rest) ← readItems fuel rest
      some (item :: items, rest)
    | ']' :: rest => some ([item], rest)
    | _ => none

/-- The members of an object that has some, up to its end. -/
def readMembers : Nat → List Char → Option (List (List TextPiece × Json) × List Char)
  | 0, _ => none
  | fuel + 1, cs =>
    match skipBlank cs with
    | '"' :: rest => do
      let (name, rest) ← readPieces rest
      match skipBlank rest with
      | ':' :: rest => do
        let (value, rest) ← readValue fuel rest
        match skipBlank rest with
        | ',' :: rest => do
          let (members, rest) ← readMembers fuel rest
          some ((name, value) :: members, rest)
        | '\x7d' :: rest => some ([(name, value)], rest)
        | _ => none
      | _ => none
    | _ => none

end

/-- The value that a whole text is.  Every second call at least takes a character, so twice the
length is fuel enough. -/
def read? (text : String) : Option Json :=
  let cs := text.toList
  match readValue (2 * cs.length + 2) cs with
  | some (value, rest) => if (skipBlank rest).isEmpty then some value else none
  | none => none

/-- The values of the fields of a record, in the order of their names.  An object may leave fields
out and may have members nobody asks for, but it gives each field once at most; an array gives
the fields by their places, from the first on. -/
def fields? (names : List String) : Json → Option (List (Option Json))
  | object members => do
    let members ← members.mapM fun (name, value) =>
      (TextPiece.decode? name).map fun name => (String.ofList name, value)
    names.mapM fun name =>
      match members.filter (·.1 = name) with
      | [] => some none
      | [(_, value)] => some (some value)
      | _ => none
  | array items =>
    if items.length ≤ names.length then
      some (names.mapIdx fun i _ => items[i]?)
    else none
  | _ => none

end Json

end EntityStore

import ElementManifest.Json.Value

/-!
# Writing JSON

The compact and the indented form. A text is quoted in one way: only the quote,
the backslash and the control characters are escaped.
-/

namespace ElementManifest.Json

/-- A hexadecimal digit. -/
def hexDigit (n : Nat) : Char :=
  if n < 10 then Char.ofNat ('0'.toNat + n) else Char.ofNat ('a'.toNat + (n - 10))

/-- A character inside quotes. -/
def quoteChar (c : Char) : List Char :=
  if c = '"' then ['\\', '"']
  else if c = '\\' then ['\\', '\\']
  else if c = '\n' then ['\\', 'n']
  else if c = '\r' then ['\\', 'r']
  else if c = '\t' then ['\\', 't']
  else if c = '\x08' then ['\\', 'b']
  else if c = '\x0c' then ['\\', 'f']
  else if c.toNat < 0x20 then
    ['\\', 'u', '0', '0', hexDigit (c.toNat / 16), hexDigit (c.toNat % 16)]
  else [c]

/-- A text in quotes. -/
def quote (s : String) : String :=
  String.ofList ('"' :: s.toList.flatMap quoteChar ++ ['"'])

/-- A value that has no parts. -/
def scalarText : Json → String
  | null => "null"
  | bool true => "true"
  | bool false => "false"
  | natural n => String.ofList (Nat.toDigits 10 n)
  | number => "0"
  | string s => quote s
  | broken => quote ""
  | array _ => "[]"
  | object _ => "\x7b\x7d"

mutual

/-- The compact form. -/
def compact : Json → String
  | array items => "[" ++ ",".intercalate (compactItems items) ++ "]"
  | object fields => "\x7b" ++ ",".intercalate (compactFields fields) ++ "\x7d"
  | v => scalarText v

/-- The compact forms of items. -/
def compactItems : List Json → List String
  | [] => []
  | v :: vs => compact v :: compactItems vs

/-- The compact forms of fields. -/
def compactFields : List (String × Json) → List String
  | [] => []
  | (name, v) :: fs => (quote name ++ ":" ++ compact v) :: compactFields fs

end

/-- A line break with the indentation of `depth`. -/
def indentation (depth : Nat) : String :=
  String.ofList ('\n' :: List.replicate (2 * depth) ' ')

/-- Parts in brackets, each on a line of its own. -/
def bracketLines (opening closing : String) (depth : Nat) (parts : List String) : String :=
  if parts.isEmpty then opening ++ closing
  else
    opening ++ indentation (depth + 1) ++ ("," ++ indentation (depth + 1)).intercalate parts
      ++ indentation depth ++ closing

mutual

/-- The indented form, at a depth. -/
def prettyAt (depth : Nat) : Json → String
  | array items => bracketLines "[" "]" depth (prettyItems (depth + 1) items)
  | object fields => bracketLines "\x7b" "\x7d" depth (prettyFields (depth + 1) fields)
  | v => scalarText v

/-- The indented forms of items. -/
def prettyItems (depth : Nat) : List Json → List String
  | [] => []
  | v :: vs => prettyAt depth v :: prettyItems depth vs

/-- The indented forms of fields. -/
def prettyFields (depth : Nat) : List (String × Json) → List String
  | [] => []
  | (name, v) :: fs => (quote name ++ ": " ++ prettyAt depth v) :: prettyFields depth fs

end

/-- The indented form. -/
def pretty (v : Json) : String :=
  prettyAt 0 v

end ElementManifest.Json

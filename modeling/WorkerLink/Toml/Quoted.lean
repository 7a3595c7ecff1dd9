/-!
Quoted texts of TOML. A text in double quotes has escapes, one in single quotes has none; three
quotes open a text over several lines. Every reader returns the text and what follows its end, and
nothing if the text has no end or holds a character that may not stand there.
-/

namespace WorkerLink.Toml.Quoted

/-- What a reader returns: a text, and what follows it. -/
abbrev Read := Option (List Char × List Char)

def push (c : Char) (read : Read) : Read := read.map fun (text, rest) => (c :: text, rest)

def isControl (c : Char) : Bool := (c.toNat < 0x20 && c ≠ '\t') || c.toNat = 0x7F

def isBlank (c : Char) : Bool := c = ' ' || c = '\t'

def simpleEscape? : Char → Option Char
  | 'b' => some '\x08'
  | 't' => some '\t'
  | 'n' => some '\n'
  | 'f' => some '\x0c'
  | 'r' => some '\r'
  | '"' => some '"'
  | '\\' => some '\\'
  | _ => none

def hexDigit? (c : Char) : Option Nat :=
  let n := c.toNat
  if c.isDigit then some (n - 48)
  else if 65 ≤ n && n ≤ 70 then some (n - 55)
  else if 97 ≤ n && n ≤ 102 then some (n - 87)
  else none

/-- The character with a code point written in hexadecimal digits, unless it is a surrogate or past
the last one. -/
def codePoint? (digits : List Char) : Option Char := do
  let n ← digits.foldlM (fun n c => (hexDigit? c).map (16 * n + ·)) 0
  if n < 0xD800 || (0xDFFF < n && n < 0x110000) then some (Char.ofNat n) else none

/-- The body of a text in double quotes, and what follows its closing quote. -/
def body : List Char → Read
  | [] => none
  | '"' :: rest => some ([], rest)
  | '\\' :: 'u' :: a :: b :: c :: d :: rest =>
    (codePoint? [a, b, c, d]).bind fun x => push x (body rest)
  | '\\' :: 'U' :: a :: b :: c :: d :: e :: f :: g :: h :: rest =>
    (codePoint? [a, b, c, d, e, f, g, h]).bind fun x => push x (body rest)
  | '\\' :: letter :: rest => (simpleEscape? letter).bind fun x => push x (body rest)
  | c :: rest => if isControl c then none else push c (body rest)

def literalBody : List Char → Read
  | [] => none
  | '\'' :: rest => some ([], rest)
  | c :: rest => if isControl c then none else push c (literalBody rest)

/-- The first character behind the blanks of a line ends it. -/
def endsLine (cs : List Char) : Bool :=
  match cs.dropWhile isBlank with
  | '\n' :: _ => true
  | '\r' :: '\n' :: _ => true
  | _ => false

/-- The body of a text of several lines in double quotes. A backslash at the end of a line takes
away all white space that follows; `skipping` says that this goes on. Two quotes may stand in front
of the closing ones. -/
def linesBody (skipping : Bool) : List Char → Read
  | [] => none
  | '"' :: '"' :: '"' :: '"' :: '"' :: rest => some (['"', '"'], rest)
  | '"' :: '"' :: '"' :: '"' :: rest => some (['"'], rest)
  | '"' :: '"' :: '"' :: rest => some ([], rest)
  | '\\' :: 'u' :: a :: b :: c :: d :: rest =>
    (codePoint? [a, b, c, d]).bind fun x => push x (linesBody false rest)
  | '\\' :: 'U' :: a :: b :: c :: d :: e :: f :: g :: h :: rest =>
    (codePoint? [a, b, c, d, e, f, g, h]).bind fun x => push x (linesBody false rest)
  | '\\' :: letter :: rest =>
    if endsLine (letter :: rest) then linesBody true (letter :: rest)
    else (simpleEscape? letter).bind fun x => push x (linesBody false rest)
  | '\r' :: '\n' :: rest =>
    if skipping then linesBody true rest else push '\n' (linesBody false rest)
  | c :: rest =>
    if skipping && (isBlank c || c = '\n') then linesBody true rest
    else if isControl c && c ≠ '\n' then none
    else push c (linesBody false rest)

/-- The body of a text of several lines in single quotes. -/
def literalLinesBody : List Char → Read
  | [] => none
  | '\'' :: '\'' :: '\'' :: '\'' :: '\'' :: rest => some (['\'', '\''], rest)
  | '\'' :: '\'' :: '\'' :: '\'' :: rest => some (['\''], rest)
  | '\'' :: '\'' :: '\'' :: rest => some ([], rest)
  | '\r' :: '\n' :: rest => push '\n' (literalLinesBody rest)
  | c :: rest => if isControl c && c ≠ '\n' then none else push c (literalLinesBody rest)

/-- Past a line end right behind the opening quotes. -/
def dropLineEnd : List Char → List Char
  | '\n' :: rest => rest
  | '\r' :: '\n' :: rest => rest
  | cs => cs

/-- A quoted text on one line, from its opening quote on. -/
def line? : List Char → Read
  | '"' :: rest => body rest
  | '\'' :: rest => literalBody rest
  | _ => none

/-- A quoted text of any kind, from its opening quote on. -/
def any? : List Char → Read
  | '"' :: '"' :: '"' :: rest => linesBody false (dropLineEnd rest)
  | '\'' :: '\'' :: '\'' :: rest => literalLinesBody (dropLineEnd rest)
  | cs => line? cs

end WorkerLink.Toml.Quoted

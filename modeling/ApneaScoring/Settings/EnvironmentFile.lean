import ApneaScoring.Settings.Basic

namespace ApneaScoring.EnvironmentFile

open Text

def isLineEnd (c : Char) : Bool :=
  c = '\n' || c = '\r'

def isGap (c : Char) : Bool :=
  isBlank c && !isLineEnd c

abbrev Reading (α : Type) := Except (List Char) (α × List Char)

def dropExport (cs : List Char) : List Char :=
  match cs with
  | 'e' :: 'x' :: 'p' :: 'o' :: 'r' :: 't' :: c :: rest =>
      if isGap c then rest.dropWhile isGap else cs
  | _ => cs

def quotedKey (cs : List Char) : Reading (Option String) :=
  let key := cs.takeWhile (· != '\'')
  match key, cs.drop key.length with
  | _ :: _, '\'' :: rest => .ok (some (String.ofList key), rest)
  | _, _ => .error ('\'' :: cs)

def plainKey (cs : List Char) : Reading (Option String) :=
  let inKey (c : Char) := c != '=' && c != '#' && !isBlank c
  let key := cs.takeWhile inKey
  if key.isEmpty then .error cs else .ok (some (String.ofList key), cs.dropWhile inKey)

def readKey : List Char → Reading (Option String)
  | '#' :: rest => .ok (none, '#' :: rest)
  | '\'' :: rest => quotedKey rest
  | cs => plainKey cs

def quotePositions (quote : Char) : Nat → Bool → List Char → List Nat × List Nat
  | _, _, [] => ([], [])
  | i, afterBackslash, c :: rest =>
      let (escaped, bare) := quotePositions quote (i + 1) (c = '\\') rest
      if c = quote then
        if afterBackslash then (i :: escaped, bare) else (escaped, i :: bare)
      else (escaped, bare)

/-- Where a quoted value ends: at the first bare quote, or else at the last one. -/
def closingQuote? (quote : Char) (cs : List Char) : Option Nat :=
  let (escaped, bare) := quotePositions quote 0 false cs
  match bare with
  | i :: _ => some i
  | [] => escaped.getLast?

def escapeOf? (quote c : Char) : Option Char :=
  if c = '\\' || c = '\'' then some c
  else if quote = '"' then
    match c with
    | '"' => some '"'
    | 'a' => some '\x07'
    | 'b' => some '\x08'
    | 'f' => some '\x0c'
    | 'n' => some '\n'
    | 'r' => some '\r'
    | 't' => some '\t'
    | 'v' => some '\x0b'
    | _ => none
  else none

def unescape (quote : Char) : List Char → List Char
  | '\\' :: c :: rest =>
      match escapeOf? quote c with
      | some e => e :: unescape quote rest
      | none => '\\' :: unescape quote (c :: rest)
  | c :: rest => c :: unescape quote rest
  | [] => []
termination_by cs => cs.length

def quotedValue (quote : Char) (cs : List Char) : Reading String :=
  match closingQuote? quote cs with
  | some i => .ok (String.ofList (unescape quote (cs.take i)), cs.drop (i + 1))
  | none => .error (quote :: cs)

def beforeComment : List Char → List Char
  | [] => []
  | c :: rest =>
      if isBlank c && (rest.dropWhile isBlank).head? = some '#' then []
      else c :: beforeComment rest

def plainValue (cs : List Char) : String :=
  stripEnd (String.ofList (beforeComment (cs.takeWhile (!isLineEnd ·))))

def readValue : List Char → Reading String
  | '\'' :: rest => quotedValue '\'' rest
  | '"' :: rest => quotedValue '"' rest
  | cs => .ok (plainValue cs, cs.dropWhile (!isLineEnd ·))

/-- A key without `=` has no value. -/
def readAssignment : List Char → Except (List Char) (Option String × List Char)
  | '=' :: rest => do
      let (value, rest) ← readValue (rest.dropWhile isGap)
      return (some value, rest)
  | cs => .ok (none, cs)

def dropComment (cs : List Char) : List Char :=
  match cs.dropWhile isGap with
  | '#' :: rest => rest.dropWhile (!isLineEnd ·)
  | _ => cs

def endLine (cs : List Char) : Except (List Char) (List Char) :=
  match cs.dropWhile isGap with
  | [] => .ok []
  | '\n' :: rest => .ok rest
  | _ => .error cs

structure Binding where
  key : String
  value : Option String
deriving DecidableEq

def readBinding (cs : List Char) : Except (List Char) (Option Binding × List Char) := do
  let (key, rest) ← readKey (dropExport cs)
  let (value, rest) ← readAssignment (rest.dropWhile isGap)
  let rest ← endLine (dropComment rest)
  return (key.map (⟨·, value⟩), rest)

def skipLine (cs : List Char) : List Char :=
  (cs.dropWhile (!isLineEnd ·)).drop 1

def readBindings (cs : List Char) : List Binding :=
  let start := cs.dropWhile isBlank
  if start.isEmpty then []
  else
    let (binding, rest) := match readBinding start with
      | .ok (binding, rest) => (binding, rest)
      | .error rest => (none, skipLine rest)
    if rest.length < cs.length then binding.toList ++ readBindings rest
    else binding.toList
termination_by cs.length

def unifyLineEnds : List Char → List Char
  | '\r' :: '\n' :: rest => '\n' :: unifyLineEnds rest
  | '\r' :: rest => '\n' :: unifyLineEnds rest
  | c :: rest => c :: unifyLineEnds rest
  | [] => []

def reference? (cs : List Char) : Option (String × String × List Char) :=
  let name := cs.takeWhile fun c => c != '\x7d' && c != ':'
  match cs.drop name.length with
  | '\x7d' :: rest => some (String.ofList name, "", rest)
  | ':' :: '-' :: more =>
      let default := more.takeWhile (· != '\x7d')
      match more.drop default.length with
      | '\x7d' :: rest => some (String.ofList name, String.ofList default, rest)
      | _ => none
  | _ => none

def expand (lookup : String → Option String) (cs : List Char) : List Char :=
  match cs with
  | [] => []
  | '$' :: '\x7b' :: rest =>
      match reference? rest with
      | some (name, default, after) =>
          if after.length < rest.length then
            ((lookup name).getD default).toList ++ expand lookup after
          else []
      | none => '$' :: expand lookup ('\x7b' :: rest)
  | c :: rest => c :: expand lookup rest
termination_by cs.length

/-- The variables of a file. References see the environment first, then the lines
above; the last line of a key counts. -/
def bindings (environment : Environment) (file : String) : List (String × Option String) :=
  (readBindings (unifyLineEnds file.toList)).foldl
    (fun known binding =>
      let lookup (name : String) : Option String :=
        (environment.lookup name).or ((known.lookup name).map (·.getD ""))
      let value := binding.value.map fun text =>
        String.ofList (expand lookup text.toList)
      (binding.key, value) :: known)
    []

/-- The environment with what a file adds to it; what is set already stays. -/
def extend (environment : Environment) (file : String) : Environment :=
  let known := bindings environment file
  let names := (known.map (·.1)).filter fun name => (environment.lookup name).isNone
  environment ++ names.filterMap fun name => ((known.lookup name).join).map (name, ·)

end ApneaScoring.EnvironmentFile

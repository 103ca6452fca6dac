import ApneaScoring.Datum.Display
import ApneaScoring.Datum.Numeric

namespace ApneaScoring.CommandLine

inductive Form
  | text
  | number
  | choice (texts : List String)
deriving DecidableEq

structure Switch where
  names : List String
  form : Option Form := none
  required : Bool := false
  excludes : List String := []
deriving DecidableEq

def Switch.title (s : Switch) : String :=
  "/".intercalate s.names

def helpSwitch : Switch where
  names := ["-h", "--help"]

structure Grammar where
  program : String
  operand : Option String := none
  switches : List Switch := []
deriving DecidableEq

inductive Refusal
  | usage (program message : String)
  | help
deriving DecidableEq

namespace Form

def problem? (form : Form) (value : String) : Option String :=
  match form with
  | text => none
  | number =>
      if (Binary64.ofText? value).isSome then none
      else some ("invalid float value: " ++ Text.quoted value)
  | choice texts =>
      if texts.contains value then none
      else some <|
        "invalid choice: " ++ Text.quoted value ++ " (choose from " ++
          ", ".intercalate (texts.map Text.quoted) ++ ")"

end Form

inductive Word
  | operand (text : String)
  /-- After this mark all words are operands. -/
  | separator
  | switch (s : Switch) (attached : Option (Bool × List Char))
  | unknown (text : String)
deriving DecidableEq

namespace Grammar

def allSwitches (g : Grammar) : List Switch :=
  helpSwitch :: g.switches

def named (g : Grammar) : List (List Char × Switch) :=
  g.allSwitches.flatMap fun s => s.names.map fun name => (name.toList, s)

def withName? (g : Grammar) (name : List Char) : Option Switch :=
  g.named.lookup name

def beforeSign (cs : List Char) : List Char :=
  cs.takeWhile (· != '=')

def attachedBySign (cs : List Char) : Option (Bool × List Char) :=
  match cs.dropWhile (· != '=') with
  | _ :: value => some (true, value)
  | [] => none

/-- The switches that a word may be short for. A single dash takes one letter, and the
rest is attached to it. -/
def candidates (g : Grammar) (cs : List Char) : List (List Char × Word) :=
  g.named.filterMap fun (name, s) =>
    if cs.take 2 = ['-', '-'] then
      if (beforeSign cs).isPrefixOf name then some (name, .switch s (attachedBySign cs))
      else none
    else if name = cs.take 2 then some (name, .switch s (some (false, cs.drop 2)))
    else if cs.isPrefixOf name then some (name, .switch s none)
    else none

def isDecimal (cs : List Char) : Bool :=
  !cs.isEmpty && cs.all fun c => (Text.digitValue? c).isSome

def isNegativeNumber : List Char → Bool
  | '-' :: cs =>
      let cs := if cs.getLast? = some '\n' then cs.dropLast else cs
      match cs.dropWhile (fun c => (Text.digitValue? c).isSome) with
      | '.' :: fraction => isDecimal fraction
      | rest => rest.isEmpty && isDecimal cs
  | _ => false

def ambiguousMessage (word : String) (names : List (List Char)) : String :=
  "ambiguous option: " ++ word ++ " could match " ++
    ", ".intercalate (names.map String.ofList)

def refuse {α : Type} (g : Grammar) (message : String) : Except Refusal α :=
  .error (.usage g.program message)

def refuseSwitch {α : Type} (g : Grammar) (s : Switch) (message : String) :
    Except Refusal α :=
  g.refuse ("argument " ++ s.title ++ ": " ++ message)

def dashed (g : Grammar) (word : String) (cs : List Char) : Except Refusal Word :=
  match g.withName? cs, g.withName? (beforeSign cs), g.candidates cs with
  | some s, _, _ => .ok (.switch s none)
  | none, some s, _ => .ok (.switch s (attachedBySign cs))
  | none, none, [(_, found)] => .ok found
  | none, none, [] =>
      .ok (if isNegativeNumber cs || cs.contains ' ' then .operand word else .unknown word)
  | none, none, found => g.refuse (ambiguousMessage word (found.map (·.1)))

def classify (g : Grammar) (word : String) : Except Refusal Word :=
  match word.toList with
  | '-' :: c :: rest => g.dashed word ('-' :: c :: rest)
  | _ => .ok (.operand word)

def classifyAll (g : Grammar) : List String → Except Refusal (List Word)
  | [] => .ok []
  | word :: rest =>
      if word = "--" then .ok (.separator :: rest.map .operand)
      else do
        let w ← g.classify word
        let ws ← g.classifyAll rest
        return w :: ws

structure Arguments where
  operand : Option String := none
  /-- The switches by their first names, in order, with their values. -/
  given : List (String × String) := []
  extras : List String := []
deriving DecidableEq

def key (s : Switch) : String :=
  s.names.headD ""

def ignoredMessage (value : List Char) : String :=
  "ignored explicit argument " ++ Text.quoted (String.ofList value)

def uselessTail? (bySign : Bool) : List Char → Option (List Char)
  | [] => some []
  | 'h' :: rest =>
      if bySign then some ('h' :: rest)
      else match rest with
        | [] => none
        | '=' :: value => some value
        | rest => uselessTail? false rest
  | c :: rest => if bySign || c = '-' then some (c :: rest) else none

def askHelp {α : Type} (g : Grammar) (attached : Option (Bool × List Char)) :
    Except Refusal α :=
  match attached.bind fun (bySign, value) => uselessTail? bySign value with
  | some tail => g.refuseSwitch helpSwitch (ignoredMessage tail)
  | none => .error .help

def conflict? (g : Grammar) (s : Switch) (done : Arguments) : Option Switch :=
  g.switches.find? fun other =>
    s.excludes.contains (key other) && (done.given.lookup (key other)).isSome

def record (g : Grammar) (s : Switch) (value : String) (done : Arguments) :
    Except Refusal Arguments :=
  match s.form.bind (·.problem? value), g.conflict? s done with
  | some problem, _ => g.refuseSwitch s problem
  | none, some other => g.refuseSwitch s ("not allowed with argument " ++ other.title)
  | none, none => .ok { done with given := done.given ++ [(key s, value)] }

def takeSwitch (g : Grammar) (s : Switch) (attached : Option (Bool × List Char))
    (rest : List Word) (done : Arguments) : Except Refusal (Arguments × Nat) :=
  match s.form, attached, rest with
  | some _, some (_, value), _ => (g.record s (String.ofList value) done).map (·, 0)
  | some _, none, .operand value :: _ => (g.record s value done).map (·, 1)
  | some _, none, _ => g.refuseSwitch s "expected one argument"
  | none, some (_, value), _ => g.refuseSwitch s (ignoredMessage value)
  | none, none, _ => (g.record s "" done).map (·, 0)

def wantsOperand (g : Grammar) (done : Arguments) : Bool :=
  g.operand.isSome && done.operand.isNone

def leave (done : Arguments) (word : String) : Arguments :=
  { done with extras := done.extras ++ [word] }

/-- The separator beside the operand is dropped, and left over elsewhere. -/
def take (g : Grammar) (done : Arguments) (words : List Word) : Except Refusal Arguments :=
  match words with
  | [] => .ok done
  | .unknown word :: rest => g.take (leave done word) rest
  | .separator :: .operand word :: rest =>
      if g.wantsOperand done then g.take { done with operand := some word } rest
      else g.take (leave (leave done "--") word) rest
  | .separator :: rest => g.take (leave done "--") rest
  | .operand word :: .separator :: rest =>
      if g.wantsOperand done then g.take { done with operand := some word } rest
      else g.take (leave (leave done word) "--") rest
  | .operand word :: rest =>
      if g.wantsOperand done then g.take { done with operand := some word } rest
      else g.take (leave done word) rest
  | .switch s attached :: rest =>
      if s = helpSwitch then g.askHelp attached
      else
        match g.takeSwitch s attached rest done with
        | .error e => .error e
        | .ok (done, count) => g.take done (rest.drop count)
termination_by words.length
decreasing_by all_goals simp; try omega

def missing (g : Grammar) (done : Arguments) : List String :=
  (if g.wantsOperand done then g.operand.toList else []) ++
    (g.switches.filter fun s => s.required && (done.given.lookup (key s)).isNone).map (·.title)

def read (g : Grammar) (words : List String) : Except Refusal Arguments := do
  let words ← g.classifyAll words
  let done ← g.take {} words
  if (g.missing done).isEmpty then return done
  else g.refuse ("the following arguments are required: " ++ ", ".intercalate (g.missing done))

end Grammar

end ApneaScoring.CommandLine

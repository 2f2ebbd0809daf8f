import PatternAction.Error
import PatternAction.Pattern.Matching
import PatternAction.Program.Outline
import PatternAction.Record

namespace PatternAction

structure Options where
  fieldSeparator : Option String := none
  assignments : List (String × String) := []
  dumpTokens : Bool := false
  dumpTree : Bool := false
  files : List String := []

inductive Request
  | run (o : Options)
  | version
  | misuse

namespace Options

def addFile? (o : Options) (name : String) : Option Options :=
  if o.files.length < 2 ∧ name ≠ "" then some { o with files := o.files ++ [name] } else none

def setSeparator? (o : Options) (value : String) : Option Options :=
  if o.fieldSeparator.isNone then some { o with fieldSeparator := some value } else none

def addAssignment? (o : Options) (value : String) : Option Options :=
  let cs := value.toList
  let name := cs.takeWhile (· ≠ '=')
  match name, cs.dropWhile (· ≠ '=') with
  | _ :: _, _ :: value =>
    some { o with assignments := o.assignments ++ [(String.ofList name, String.ofList value)] }
  | _, _ => none

end Options

namespace Request

inductive Setting
  | separator
  | assignment

def Setting.apply (s : Setting) (o : Options) (value : String) : Option Options :=
  match s with
  | .separator => o.setSeparator? value
  | .assignment => o.addAssignment? value

def isValue (arg : String) : Bool := arg.toList.head? ≠ some '-' || arg = "-"

def long? (arg : String) : Option (Setting × Option String) :=
  let cs := arg.toList
  let value := match cs.dropWhile (· ≠ '=') with
    | _ :: rest => some (String.ofList rest)
    | [] => none
  match String.ofList (cs.takeWhile (· ≠ '=')) with
  | "--field-separator" => some (.separator, value)
  | "--assign" => some (.assignment, value)
  | _ => none

def short? (arg : String) : Option (Setting × Option String) :=
  let value : List Char → Option String
    | [] => none
    | '=' :: rest => some (String.ofList rest)
    | rest => some (String.ofList rest)
  match arg.toList with
  | '-' :: 'F' :: rest => some (.separator, value rest)
  | '-' :: 'v' :: rest => some (.assignment, value rest)
  | _ => none

-- Reads arguments after those that gave the options so far. Options and file names come in any
-- order until two hyphens end the options.
def ofArgs (o : Options) : List String → Request
  | [] => if o.files = [] then misuse else run o
  | "--" :: files =>
    match files.foldlM Options.addFile? o with
    | some o => if o.files = [] then misuse else run o
    | none => misuse
  | "--version" :: _ => version
  | "--dump-tokens" :: rest =>
    if o.dumpTokens then misuse else ofArgs { o with dumpTokens := true } rest
  | "--dump-ast" :: rest =>
    if o.dumpTree then misuse else ofArgs { o with dumpTree := true } rest
  | arg :: rest =>
    if isValue arg then
      match o.addFile? arg with
      | some o => ofArgs o rest
      | none => misuse
    else if "-V".toList.isPrefixOf arg.toList then version
    else match (long? arg).or (short? arg), rest with
      | some (s, some value), rest =>
        match s.apply o value with
        | some o => ofArgs o rest
        | none => misuse
      | some (s, none), value :: rest =>
        if isValue value then
          match s.apply o value with
          | some o => ofArgs o rest
          | none => misuse
        else misuse
      | _, _ => misuse

end Request

structure Outcome where
  exitCode : Int := 0
  output : String := ""
  error : Option Error := none

def failureCode : Int := 2

def Outcome.failed (e : Error) (output : String) : Outcome :=
  { exitCode := failureCode, output, error := some e }

def readText (read : String → Except FileProblem ByteArray) (name : String) :
    Except Error String := do
  let bytes ← (read name).mapError .file
  match String.fromUTF8? bytes with
  | some text => return text
  | none => throw (.file .notText)

def Options.prepare (o : Options) (read : String → Except FileProblem ByteArray) :
    Except Error (Machine × List String) := do
  let m : Machine := {}
  let m := match o.fieldSeparator with
    | some fs => m.assign "FS" fs
    | none => m
  let m := o.assignments.foldl (fun m (x, v) => m.assign x v) m
  match o.files[1]? with
  | some name => return (m.assign "FILENAME" name, recordsOf (← readText read name))
  | none => return (m, [])

def Options.execute (o : Options) (read : String → Except FileProblem ByteArray) : Outcome :=
  let lines (ls : List String) : Outcome := { output := String.join (ls.map (· ++ "\n")) }
  let outcome : Except Error Outcome := do
    let source ← readText read (o.files.headD "")
    let tokens ← (tokenize source).mapError .lexical
    if o.dumpTokens then return lines (tokens.map Token.listing)
    let p ← (parse tokens).mapError .syntactic
    if o.dumpTree then return lines p.outline.lines
    let (m, records) ← o.prepare read
    match m.run p records with
    | (.ok code, m) => return { exitCode := code, output := m.output }
    | (.error f, m) => return .failed (.failure f) m.output
  match outcome with
  | .ok r => r
  | .error e => .failed e ""

def versionText : String := "mini-awk 0.1.0\n"

end PatternAction

import PatternAction.Environment
import PatternAction.Ghost
import PatternAction.Split

namespace PatternAction

structure State where
  environment : Environment := .initial
  records : Array String := #[]
  -- The number of records taken, also counting those passed over.
  cursor : Nat := 0
  -- Whether the present phase is to end.
  halted : Bool := false
  exitCode : Int := 0
  output : String := ""

namespace State

def push (s : State) (f : Frame) : State := { s with environment := s.environment.push f }

def pop (s : State) : State := { s with environment := s.environment.pop }

end State

-- What an expression is for the statement that it stands in.
inductive Clause
  | whole
  | condition
  -- The condition of a branch that another one leads to.
  | otherwise
  | initial
  | update
  | result
  | index (array : String)
deriving DecidableEq

-- What happens to the input: a record is asked for, which there may not be; its fields are made and
-- it is about to be counted; all records that are left are passed over.
inductive Input
  | sought (record : Option String)
  | loaded (record : String)
  | skipped
deriving DecidableEq

-- What a machine goes through: a change of its state, the end of an expression of a statement, or
-- something that happens to its input.
inductive Event
  | became (s : State)
  | evaluated (c : Clause) (r : Except Failure Value) (before after : State)
  | input (i : Input)

-- A machine remembers, for reasoning only, all that it went through.
structure Machine extends State where
  history : Ghost (List Event) := .of []

namespace Machine

@[inline] def note (m : Machine) (event : Event) : Machine :=
  { m with history := m.history.map (· ++ [event]) }

@[inline] def become (m : Machine) (s : State) : Machine :=
  { toState := s, history := m.history.map (· ++ [.became s]) }

end Machine

-- A step of a run. One that fails leaves behind what was done before the failure.
abbrev Run := ExceptT Failure (StateM Machine)

namespace Run

def fail {α : Type} (cause : Fault) (location : Location) : Run α :=
  throw (.fault cause (some location))

-- The outcome of an operation, with the place its fault is reported at.
def check {α : Type} (location : Option Location) (r : Except Fault α) : Run α :=
  match r with
  | .ok a => pure a
  | .error cause => throw (.fault cause location)

def change (f : State → State) : Run Unit := modify fun m => m.become (f m.toState)

def input (i : Input) : Run Unit := modify (·.note (.input i))

def environment : Run Environment := do return (← get).environment

def setEnvironment (e : Environment) : Run Unit := change fun s => { s with environment := e }

def isHalted : Run Bool := do return (← get).halted

def halt : Run Unit := change fun s => { s with halted := true }

def setExitCode (code : Int) : Run Unit := change fun s => { s with exitCode := code }

def write (text : String) : Run Unit := change fun s => { s with output := s.output ++ text }

def scalar (x : String) (l : Location) : Run Value := do
  check (some l) ((← environment).scalar x)

def setScalar (x : String) (v : Value) (l : Location) : Run Unit := do
  setEnvironment (← check (some l) ((← environment).setScalar x v))

def element (x key : String) (l : Location) : Run Value := do
  let (v, e) ← check (some l) ((← environment).element x key)
  setEnvironment e
  return v

def setElement (x key : String) (v : Value) (l : Location) : Run Unit := do
  setEnvironment (← check (some l) ((← environment).setElement x key v))

def setArray (x : String) (t : Table Value) : Run Unit := do
  setEnvironment ((← environment).setArray x t)

def hasElement (x key : String) (l : Location) : Run Bool := do
  check (some l) ((← environment).hasElement x key)

def keys (x : String) (l : Location) : Run (List String) := do
  check (some l) ((← environment).keys x)

def delete (x : String) (key : Option String) (l : Location) : Run Unit := do
  setEnvironment (← check (some l) ((← environment).delete x key))

def fieldName (index : Value) (l : Location) : Run String :=
  check (some l) (Environment.fieldName index)

def field (name : String) : Run Value := do return (← environment).field name

def setField (name : String) (v : Value) : Run Unit := do
  setEnvironment ((← environment).setGlobal name v)

def global (x : String) : Run Value := do check none ((← environment).global x)

-- Runs a body inside a new frame, which goes away however the body ends.
def withFrame {α : Type} (f : Frame) (body : Run α) : Run α := fun m =>
  let (r, m) := body (m.become (m.push f))
  (r, m.become m.pop)

def clause (c : Clause) (x : Run Value) : Run Value := fun m =>
  let (r, m') := x m
  (r, m'.note (.evaluated c r m.toState m'.toState))

section Patterns

variable [Patterns]

def pattern (source : String) : Run Matcher :=
  match Patterns.matcher? source with
  | some q => pure q
  | none => throw .badPattern

def split (text sep : String) : Run (List String × List String) :=
  match splitText? text sep with
  | some r => pure r
  | none => throw .badPattern

def setRecord (record : String) : Run Unit := do
  setEnvironment (← environment).dropFields
  let fs ← global "FS"
  let (fields, _) ← split record fs.text
  setEnvironment ((← environment).setFields record fields)

-- Takes the next record and counts it; false if there is none.
def loadRecord : Run Bool := do
  let m ← get
  input (.sought m.records[m.cursor]?)
  match m.records[m.cursor]? with
  | none => return false
  | some record =>
    change fun s => { s with cursor := s.cursor + 1 }
    let one := Number.ofNat 1
    let nr := (← global "NR").number.add one
    let fnr := (← global "FNR").number.add one
    setRecord record
    input (.loaded record)
    let e ← environment
    setEnvironment ((e.setGlobal "NR" (.ofNumber nr)).setGlobal "FNR" (.ofNumber fnr))
    return true

end Patterns

def skipRecords : Run Unit := do
  input .skipped
  change fun s => { s with cursor := s.records.size }

end Run

end PatternAction

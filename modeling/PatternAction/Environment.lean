import PatternAction.Fault
import PatternAction.Table
import PatternAction.Value

namespace PatternAction

inductive Cell
  | scalar (v : Value)
  | array (t : Table Value)

inductive Scope
  | globals
  | frame (index : Nat)
deriving DecidableEq

structure Reference where
  scope : Scope
  name : String
deriving DecidableEq

-- The bindings of one function call: its locals, and the arrays it was handed.
structure Frame where
  locals : Table Cell := {}
  aliases : Table Reference := {}

-- The globals, and the frames of the calls under way, the innermost last.
structure Environment where
  globals : Table Cell
  frames : Array Frame := #[]

namespace Environment

def push (e : Environment) (f : Frame) : Environment := { e with frames := e.frames.push f }

def pop (e : Environment) : Environment := { e with frames := e.frames.pop }

-- Inside a call a name means the array that the call was handed under it, else a local of the call,
-- else a global. Fields of the record are globals whose names begin with a dollar sign.
def resolve (e : Environment) (x : String) : Reference :=
  match e.frames.back? with
  | none => ⟨.globals, x⟩
  | some f =>
    match f.aliases.get? x with
    | some r => r
    | none => if f.locals.contains x then ⟨.frame (e.frames.size - 1), x⟩ else ⟨.globals, x⟩

def cell? (e : Environment) (r : Reference) : Option Cell :=
  match r.scope with
  | .globals => e.globals.get? r.name
  | .frame i => e.frames[i]?.bind fun f => f.locals.get? r.name

def setCell (e : Environment) (r : Reference) (c : Cell) : Environment :=
  match r.scope with
  | .globals => { e with globals := e.globals.insert r.name c }
  | .frame i =>
    { e with frames := e.frames.modify i fun f => { f with locals := f.locals.insert r.name c } }

def lookup (e : Environment) (x : String) : Option Cell := e.cell? (e.resolve x)

def store (e : Environment) (x : String) (c : Cell) : Environment := e.setCell (e.resolve x) c

def scalar (e : Environment) (x : String) : Except Fault Value :=
  match e.lookup x with
  | some (.scalar v) => .ok v
  | some (.array _) => .error (.arrayAsScalar x)
  | none => .ok .unset

def setScalar (e : Environment) (x : String) (v : Value) : Except Fault Environment :=
  match e.lookup x with
  | some (.array _) => .error (.scalarOverArray x)
  | _ => .ok (e.store x (.scalar v))

-- The array of a name, which is made empty on first use.
def array (e : Environment) (x : String) : Except Fault (Table Value × Environment) :=
  match e.lookup x with
  | some (.array t) => .ok (t, e)
  | some (.scalar _) => .error (.scalarAsArray x)
  | none => .ok (.empty, e.store x (.array .empty))

def element (e : Environment) (x key : String) : Except Fault (Value × Environment) := do
  let (t, e) ← e.array x
  return ((t.get? key).getD .unset, e)

def setElement (e : Environment) (x key : String) (v : Value) : Except Fault Environment := do
  let (t, e) ← e.array x
  return e.store x (.array (t.insert key v))

-- Binds a name to an array, whatever it was bound to.
def setArray (e : Environment) (x : String) (t : Table Value) : Environment :=
  e.store x (.array t)

def hasElement (e : Environment) (x key : String) : Except Fault Bool :=
  match e.lookup x with
  | some (.array t) => .ok (t.contains key)
  | some (.scalar _) => .error (.notArray x)
  | none => .error (.unboundArray x)

def keys (e : Environment) (x : String) : Except Fault (List String) :=
  match e.lookup x with
  | some (.array t) => .ok t.keys
  | some (.scalar _) => .error (.notArray x)
  | none => .ok []

def delete (e : Environment) (x : String) (key : Option String) : Except Fault Environment :=
  match e.lookup x with
  | some (.array t) =>
    .ok (e.store x (.array (match key with
      | some k => t.erase k
      | none => .empty)))
  | some (.scalar _) => .error (.deleteFromScalar x)
  | none => .ok e

def global (e : Environment) (x : String) : Except Fault Value :=
  match e.globals.get? x with
  | some (.scalar v) => .ok v
  | some (.array _) => .error (.arrayAsScalar x)
  | none => .ok .unset

def setGlobal (e : Environment) (x : String) (v : Value) : Environment :=
  { e with globals := e.globals.insert x (.scalar v) }

def fieldName (index : Value) : Except Fault String :=
  let n := index.number
  if n.isNegative then .error (.badField n) else .ok ("$" ++ n.canonical)

-- The value of a field by the name of its global; a field that was never stored is empty.
def field (e : Environment) (name : String) : Value :=
  match e.globals.get? name with
  | some (.scalar v) => v
  | _ => .empty

def isFieldName (x : String) : Bool := x.toList.head? == some '$'

def dropFields (e : Environment) : Environment :=
  { e with globals := e.globals.restrict fun x => !isFieldName x }

def setFields (e : Environment) (record : String) (fields : List String) : Environment :=
  let e := e.setGlobal "$0" ⟨record⟩
  let e := fields.zipIdx.foldl (fun e (f, i) => e.setGlobal ("$" ++ toString (i + 1)) ⟨f⟩) e
  e.setGlobal "NF" (.ofNat fields.length)

def initial : Environment where
  globals := .ofList <| [("FILENAME", ""), ("FS", " "), ("OFS", " "), ("ORS", "\n"),
    ("OFMT", "%.6g"), ("NF", "0"), ("NR", "0"), ("FNR", "0")].map fun (x, v) =>
    (x, .scalar ⟨v⟩)

end Environment

end PatternAction

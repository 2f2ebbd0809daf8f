import PatternAction.Builtin
import PatternAction.Format
import PatternAction.Machine
import PatternAction.Program
import PatternAction.Substitution
import PatternAction.Text.Case
import PatternAction.Text.Position

namespace PatternAction

inductive Signal
  | normal
  | break
  | continue
  | return (v : Value)
deriving DecidableEq

-- A place for a value, its index already evaluated.
inductive Target
  | name (x : String)
  | element (array key : String)
  | field (name : String)
deriving DecidableEq

namespace Run

def readTarget (l : Location) : Target → Run Value
  | .name x => scalar x l
  | .element array key => element array key l
  | .field name => field name

def writeTarget (v : Value) (l : Location) : Target → Run Unit
  | .name x => setScalar x v l
  | .element array key => setElement array key v l
  | .field name => setField name v

def arithmetic (op : Arithmetic) (x y : Number) (l : Location) : Run Number :=
  match op with
  | .add => pure (x.add y)
  | .sub => pure (x.sub y)
  | .mul => pure (x.mul y)
  | .div => if y.isZero then fail .divisionByZero l else pure (x.div y)
  | .mod => if y.isZero then fail .remainderByZero l else pure (x.mod y)
  | .pow => pure (x.pow y)

def holds : Comparison → Ordering → Bool
  | .lt, o => o == .lt
  | .le, o => o != .gt
  | .gt, o => o == .gt
  | .ge, o => o != .lt
  | .eq, o => o == .eq
  | .ne, o => o != .eq

def unary : UnaryOp → Value → Value
  | .neg, v => .ofNumber v.number.neg
  | .pos, v => .ofNumber v.number
  | .not, v => .ofBool (!v.isTrue)

-- The values before and after a step, moved by one, and which of them it yields.
def stepped (op : Step) (old : Number) : Number × Number :=
  let one := Number.ofNat 1
  match op with
  | .preIncrement => (old.add one, old.add one)
  | .preDecrement => (old.add one.neg, old.add one.neg)
  | .postIncrement => (old.add one, old)
  | .postDecrement => (old.add one.neg, old)

def arrayName (function : String) (e : Expr) : Run String :=
  match e.plainName? with
  | some x => pure x
  | none => fail (.arrayArgumentNeeded function) e.location

variable [Patterns]

mutual

-- The number bounds the steps inside one another; a run that has none left fails in a way of its
-- own.
def eval (p : Program) : Nat → Expr → Run Value
  | 0, _ => throw .outOfSteps
  | _ + 1, .constant text _ => pure ⟨text⟩
  | _ + 1, .pattern _ l => fail .strayPattern l
  | _ + 1, .name x l => scalar x l
  | n + 1, .element array index l => do
    let key ← eval p n index
    element array key.text l
  | n + 1, .field index l => do
    let v ← eval p n index
    field (← fieldName v l)
  | n + 1, .binary .and left right _ => do
    if (← eval p n left).isTrue then return .ofBool (← eval p n right).isTrue
    else return .ofBool false
  | n + 1, .binary .or left right _ => do
    if (← eval p n left).isTrue then return .ofBool true
    else return .ofBool (← eval p n right).isTrue
  | n + 1, .binary .concat left right _ => do
    let a ← eval p n left
    let b ← eval p n right
    return ⟨a.text ++ b.text⟩
  | n + 1, .binary (.comparison op) left right _ => do
    let a ← eval p n left
    let b ← eval p n right
    return .ofBool (holds op (a.compare b))
  | n + 1, .binary (.arithmetic op) left right l => do
    let a ← eval p n left
    let b ← eval p n right
    return .ofNumber (← arithmetic op a.number b.number l)
  | n + 1, .unary op operand _ => do return unary op (← eval p n operand)
  | n + 1, .assign target value l => do
    let t ← evalTarget p n target
    let v ← eval p n value
    writeTarget v l t
    return v
  | n + 1, .step op target l => do
    let t ← evalTarget p n target
    let old := (← readTarget l t).number
    let (new, result) := stepped op old
    writeTarget (.ofNumber new) l t
    return .ofNumber result
  | n + 1, .conditional condition yes no _ => do
    if (← eval p n condition).isTrue then eval p n yes else eval p n no
  | n + 1, .call function args l =>
    match p.function? function, Builtin.ofName? function with
    | some f, _ => call p n f args l
    | none, some b =>
      if b.accepts args.length then provided p n b args l
      else fail (.wrongCount b.name args.length) l
    | none, none => fail (.undefinedFunction function) l
  | n + 1, .member key array l =>
    match array.plainName? with
    | none => fail .arrayNeeded array.location
    | some x => do
      let k ← eval p n key
      return .ofBool (← hasElement x k.text l)
  | n + 1, .search subject source negated _ => do
    let v ← eval p n subject
    let q ← pattern source
    return .ofBool (q.isFound v.text.toList.toArray != negated)

def evalTarget (p : Program) : Nat → Expr → Run Target
  | 0, _ => throw .outOfSteps
  | _ + 1, .name x _ => pure (.name x)
  | n + 1, .element array index _ => do
    let key ← eval p n index
    return .element array key.text
  | n + 1, .field index l => do
    let v ← eval p n index
    return .field (← fieldName v l)
  | _ + 1, e => fail .badTarget e.location

def evalAll (p : Program) : Nat → List Expr → Run (List Value)
  | 0, _ => throw .outOfSteps
  | _ + 1, [] => pure []
  | n + 1, e :: rest => do
    let v ← eval p n e
    return v :: (← evalAll p n rest)

def evalPattern (p : Program) : Nat → Expr → Run String
  | 0, _ => throw .outOfSteps
  | _ + 1, .pattern source _ => pure source
  | n + 1, e => do return (← eval p n e).text

-- The value of an argument that may be missing, which is then the whole record.
def evalOrRecord (p : Program) : Nat → Option Expr → Run Value
  | 0, _ => throw .outOfSteps
  | _ + 1, none => field "$0"
  | n + 1, some e => eval p n e

def provided (p : Program) : Nat → Builtin → List Expr → Location → Run Value
  | 0, _, _, _ => throw .outOfSteps
  | _ + 1, .print, [], _ => do
    let line ← field "$0"
    write (line.text ++ (← global "ORS").text)
    return .empty
  | n + 1, .print, args, _ => do
    let vs ← evalAll p n args
    write (String.join (vs.map Value.text) ++ (← global "ORS").text)
    return .empty
  | n + 1, .printf, form :: args, _ => do
    let v ← eval p n form
    let vs ← evalAll p n args
    write (format v.text vs ++ "\n")
    return .empty
  | _ + 1, .getline, [], _ => do return .ofBool (← loadRecord)
  | _ + 1, .next, [], _ => do
    let _ ← loadRecord
    return .empty
  | _ + 1, .nextfile, [], _ => do
    skipRecords
    return .empty
  | _ + 1, .exit, [], _ => do
    halt
    return .empty
  | n + 1, .exit, [code], _ => do
    let v ← eval p n code
    let code := v.number.toIntWithin (-2 ^ 31) (2 ^ 31 - 1)
    setExitCode code
    halt
    return .empty
  | n + 1, .gsub, source :: replacement :: target, _ =>
    substituted p n true source replacement target.head?
  | n + 1, .sub, source :: replacement :: target, _ =>
    substituted p n false source replacement target.head?
  | n + 1, .match, [subject, source], _ => do
    let v ← eval p n subject
    let q ← pattern (← evalPattern p n source)
    match q.find? v.text.toList.toArray with
    | some (start, _) => return .ofNat (start + 1)
    | none => return .ofNat 0
  | n + 1, .index, [text, part], _ => do
    let v ← eval p n text
    let w ← eval p n part
    return .ofNat ((Text.indexOf? w.text.toList v.text.toList).getD 0)
  | n + 1, .length, args, _ => do
    let v ← evalOrRecord p n args.head?
    return .ofNat v.text.length
  | n + 1, .split, text :: array :: options, _ => do
    let v ← eval p n text
    let array ← arrayName "split" array
    let sep ← match options.head? with
      | some e => evalPattern p n e
      | none => do pure (← global "FS").text
    let seps ← match options[1]? with
      | some e => some <$> arrayName "split" e
      | none => pure none
    let (fields, separators) ← split v.text sep
    setArray array (.numbered (fields.map Value.mk))
    if let some x := seps then setArray x (.numbered (separators.map Value.mk))
    return .ofNat fields.length
  | n + 1, .substr, [text, start], _ => do
    let v ← eval p n text
    let s ← eval p n start
    return ⟨String.ofList (Text.substring v.text.toList s.number none)⟩
  | n + 1, .substr, [text, start, length], _ => do
    let v ← eval p n text
    let s ← eval p n start
    let k ← eval p n length
    return ⟨String.ofList (Text.substring v.text.toList s.number (some k.number))⟩
  | n + 1, .tolower, [text], _ => do return ⟨Text.toLower (← eval p n text).text⟩
  | n + 1, .toupper, [text], _ => do return ⟨Text.toUpper (← eval p n text).text⟩
  | _ + 1, b, _, l => fail (.missingArgument b.name) l

-- Replaces matches in a text or in the record. The result becomes the record either way.
def substituted (p : Program) : Nat → Bool → Expr → Expr → Option Expr → Run Value
  | 0, _, _, _, _ => throw .outOfSteps
  | n + 1, all, source, replacement, target => do
    let source ← evalPattern p n source
    let r ← eval p n replacement
    let v ← evalOrRecord p n target
    let q ← pattern source
    let (result, count) := substitute q r.text.toList v.text.toList all
    setField "$0" ⟨String.ofList result⟩
    return .ofNat count

-- Calls a function of the program. Without a return its value is empty.
def call (p : Program) : Nat → Function → List Expr → Location → Run Value
  | 0, _, _, _ => throw .outOfSteps
  | n + 1, f, args, l => do
    if args.length ≠ f.params.length then
      fail (.wrongArity f.name f.params.length args.length) l
    else
      let frame ← bindAll p n f.name (f.params.zip args) {}
      match ← withFrame frame (block p n f.body) with
      | .return v => return v
      | _ => return .empty

-- Binds parameters to arguments, which are evaluated outside the call. A name that is bound to an
-- array hands over the array itself.
def bindAll (p : Program) : Nat → String → List (Expr × Expr) → Frame → Run Frame
  | 0, _, _, _ => throw .outOfSteps
  | _ + 1, _, [], frame => pure frame
  | n + 1, function, (param, arg) :: rest, frame => do
    match param.plainName? with
    | none => fail (.badParameter function) param.location
    | some x =>
      let e ← environment
      match arg.plainName?.bind fun y => (e.lookup y).map fun c => (y, c) with
      | some (y, .array _) =>
        bindAll p n function rest { frame with aliases := frame.aliases.insert x (e.resolve y) }
      | _ =>
        let v ← eval p n arg
        bindAll p n function rest { frame with locals := frame.locals.insert x (.scalar v) }

def statement (p : Program) : Nat → Stmt → Run Signal
  | 0, _ => throw .outOfSteps
  | n + 1, .expr e => do
    let _ ← clause .whole (eval p n e)
    return .normal
  | n + 1, .if b => branch p n .condition b
  | n + 1, .while condition body _ => whileLoop p n condition body
  | n + 1, .doWhile body condition _ => doLoop p n body condition
  | n + 1, .for init condition update body _ => do
    if let some e := init then
      let _ ← clause .initial (eval p n e)
    forLoop p n condition update body
  | n + 1, .forIn x array body l => do
    forEach p n x (← keys array l) body l
  | _ + 1, .break _ => pure .break
  | _ + 1, .continue _ => pure .continue
  | _ + 1, .return none _ => pure (.return .empty)
  | n + 1, .return (some e) _ => do return .return (← clause .result (eval p n e))
  | _ + 1, .delete array none l => do
    delete array none l
    return .normal
  | n + 1, .delete array (some index) l => do
    let key ← clause (.index array) (eval p n index)
    delete array (some key.text) l
    return .normal

def branch (p : Program) : Nat → Clause → Branch → Run Signal
  | 0, _, _ => throw .outOfSteps
  | n + 1, c, .mk condition action otherwise _ => do
    if (← clause c (eval p n condition)).isTrue then block p n action
    else match otherwise with
      | .nothing => return .normal
      | .block b => block p n b
      | .branch b => branch p n .otherwise b

def block (p : Program) : Nat → Block → Run Signal
  | 0, _ => throw .outOfSteps
  | n + 1, b => statements p n b.statements

-- Statements in order, until the phase ends or one of them does not end normally.
def statements (p : Program) : Nat → List Stmt → Run Signal
  | 0, _ => throw .outOfSteps
  | _ + 1, [] => pure .normal
  | n + 1, s :: rest => do
    if ← isHalted then return .normal
    match ← statement p n s with
    | .normal => statements p n rest
    | signal => return signal

def whileLoop (p : Program) : Nat → Expr → Block → Run Signal
  | 0, _, _ => throw .outOfSteps
  | n + 1, condition, body => do
    if ← isHalted then return .normal
    if (← clause .condition (eval p n condition)).isTrue then
      match ← block p n body with
      | .normal | .continue => whileLoop p n condition body
      | .break => return .normal
      | .return v => return .return v
    else return .normal

def doLoop (p : Program) : Nat → Block → Expr → Run Signal
  | 0, _, _ => throw .outOfSteps
  | n + 1, body, condition => do
    match ← block p n body with
    | .normal | .continue =>
      if ← isHalted then return .normal
      if (← clause .condition (eval p n condition)).isTrue then doLoop p n body condition
      else return .normal
    | .break => return .normal
    | .return v => return .return v

def forLoop (p : Program) : Nat → Option Expr → Option Expr → Block → Run Signal
  | 0, _, _, _ => throw .outOfSteps
  | n + 1, condition, update, body => do
    if ← isHalted then return .normal
    let goOn ← match condition with
      | some e => do pure (← clause .condition (eval p n e)).isTrue
      | none => pure true
    if goOn then
      match ← block p n body with
      | .normal | .continue =>
        if let some e := update then
          let _ ← clause .update (eval p n e)
        forLoop p n condition update body
      | .break => return .normal
      | .return v => return .return v
    else return .normal

def forEach (p : Program) : Nat → String → List String → Block → Location → Run Signal
  | 0, _, _, _, _ => throw .outOfSteps
  | _ + 1, _, [], _, _ => pure .normal
  | n + 1, x, key :: rest, body, l => do
    if ← isHalted then return .normal
    setScalar x ⟨key⟩ l
    match ← block p n body with
    | .normal | .continue => forEach p n x rest body l
    | .break => return .normal
    | .return v => return .return v

end

end Run

end PatternAction

import PatternAction.Machine.Eval

namespace PatternAction

variable [Patterns]

namespace Run

def blocks (p : Program) (n : Nat) : List Block → Run Unit
  | [] => pure ()
  | b :: rest => do
    let _ ← block p n b
    if ← isHalted then return ()
    blocks p n rest

-- Whether a rule applies to the current record. A pattern on its own is searched in it.
def applies (p : Program) (n : Nat) : Option Expr → Run Bool
  | none => pure true
  | some (.pattern source _) => do
    let record ← field "$0"
    let q ← pattern source
    return q.isFound record.text.toList.toArray
  | some e => do return (← eval p n e).isTrue

def rules (p : Program) (n : Nat) : List Rule → Run Unit
  | [] => pure ()
  | r :: rest => do
    if ← applies p n r.condition then
      let _ ← block p n r.action
    if ← isHalted then return ()
    rules p n rest

-- Runs the rules for each record that is left, of which there are at most `k`.
def eachRecord (p : Program) (n : Nat) : Nat → Run Unit
  | 0 => pure ()
  | k + 1 => do
    if ← loadRecord then
      rules p n p.rules
      if ← isHalted then return ()
      eachRecord p n k

-- A phase that ends early goes on with the blocks after the input.
def program (p : Program) (n : Nat) (records : List String) : Run Int := do
  change fun s => { s with records := records.toArray, cursor := 0 }
  blocks p n p.begins
  unless ← isHalted do eachRecord p n records.length
  change fun s => { s with halted := false }
  blocks p n p.ends
  return (← get).exitCode

end Run

namespace Machine

-- The number of nested steps allowed, which no run comes near.
def stepLimit : Nat := 2 ^ 62

def assign (m : Machine) (x value : String) : Machine :=
  { m with environment := m.environment.setGlobal x ⟨value⟩ }

def global? (m : Machine) (x : String) : Option Cell := m.environment.globals.get? x

-- Runs a program over records; the machine afterwards serves for the next run.
def run (m : Machine) (p : Program) (records : List String) : Except Failure Int × Machine :=
  (Run.program p stepLimit records).run.run m

def evaluate (m : Machine) (p : Program) (e : Expr) : Except Failure Value × Machine :=
  (Run.eval p stepLimit e).run.run m

def execute (m : Machine) (p : Program) (s : Stmt) : Except Failure Signal × Machine :=
  (Run.statement p stepLimit s).run.run m

end Machine

end PatternAction

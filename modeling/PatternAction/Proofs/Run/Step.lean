import PatternAction.Machine
import PatternAction.Proofs.Run.Scope
import PatternAction.Proofs.Syntax.Uses

namespace PatternAction

def Environment.isArray (e : Environment) (r : Reference) : Bool := (e.cell? r).any Cell.isArray

namespace Environment

-- What an operation can make of an environment, when variables may be used in some ways.
inductive Write (may : Use → String → Prop) (e : Environment) : Environment → Prop
  | same   : Write may e e
  | scalar : may .assigned x → e.isArray (e.resolve x) = false →
               Write may e (e.store x (.scalar v))
  -- An array is made, or one of its elements stored or removed.
  | array  : may .indexed x → (∀ v, e.lookup x ≠ some (.scalar v)) →
               Write may e (e.store x (.array t))
  -- The only way from a scalar to an array.
  | split  : may .split x → Write may e (e.setArray x t)
  | field  : isFieldName x → Write may e (e.setGlobal x v)

-- The steps of a run that uses variables in these ways and begins calls with `handed` frames.
inductive Step (may : Use → String → Prop) (handed : Environment → Frame → Prop)
    (e : Environment) : Environment → Prop
  | write  : e.Write may e' → Step may handed e e'
  | drop   : Step may handed e e.dropFields
  | fields : Step may handed e (e.setFields record fs)
  | count  : e.isArray ⟨.globals, "NR"⟩ = false → e.isArray ⟨.globals, "FNR"⟩ = false →
               Step may handed e ((e.setGlobal "NR" nr).setGlobal "FNR" fnr)
  | push   : handed e f → Step may handed e (e.push f)
  | pop    : 0 < e.depth → Step may handed e e.pop

theorem Write.depth {may : Use → String → Prop} {e e' : Environment} (h : e.Write may e') :
    e'.depth = e.depth := by
  cases h
  case same | field => rfl
  case scalar | array | split => exact depth_setCell

end Environment

namespace State

def depth (s : State) : Nat := s.environment.depth

@[simp] theorem depth_push {s : State} {f : Frame} : (s.push f).depth = s.depth + 1 :=
  Environment.depth_push

@[simp] theorem depth_pop {s : State} : s.pop.depth = s.depth - 1 := Environment.depth_pop

end State

-- The steps of a run inside one phase.
inductive State.Step (may : Use → String → Prop) (handed : Environment → Frame → Prop) (s : State) :
    State → Prop
  | environment : s.environment.Step may handed e →
                    Step may handed s { s with environment := e }
  | take        : s.cursor < s.records.size → Step may handed s { s with cursor := s.cursor + 1 }
  | skip        : Step may handed s { s with cursor := s.records.size }
  | write       : Step may handed s { s with output := s.output ++ text }
  | halt        : Step may handed s { s with halted := true }
  | exitCode    : Step may handed s { s with exitCode := code }

-- A step of any kind, as far as the environment goes.
def State.Moves (may : Use → String → Prop) (handed : Environment → Frame → Prop) (s s' : State) :
    Prop :=
  s.environment.Step may handed s'.environment

namespace State.Step

variable {may : Use → String → Prop} {handed : Environment → Frame → Prop} {s s' : State}

theorem moves : State.Step may handed s s' → s.Moves may handed s'
  | environment h                           => h
  | take _ | skip | write | halt | exitCode => .write .same

theorem halted (h : State.Step may handed s s') (hs : s.halted) : s'.halted := by
  cases h
  case halt => rfl
  all_goals exact hs

end State.Step

end PatternAction

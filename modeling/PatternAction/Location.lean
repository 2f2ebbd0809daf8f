namespace PatternAction

-- A line and a column, both counted from one.
structure Location where
  line : Nat
  column : Nat
deriving DecidableEq

namespace Location

instance : Inhabited Location := ⟨0, 0⟩

def start : Location := ⟨1, 1⟩

def next (l : Location) (c : Char) : Location :=
  if c = '\n' then ⟨l.line + 1, 1⟩ else ⟨l.line, l.column + 1⟩

def after (l : Location) (cs : List Char) : Location :=
  cs.foldl next l

@[simp] theorem after_nil (l : Location) : l.after [] = l := rfl

@[simp] theorem after_cons (l : Location) (c : Char) (cs : List Char) :
    l.after (c :: cs) = (l.next c).after cs := rfl

theorem after_append (l : Location) (cs ds : List Char) :
    l.after (cs ++ ds) = (l.after cs).after ds :=
  List.foldl_append

def text (l : Location) : String :=
  "line " ++ toString l.line ++ ", column " ++ toString l.column

end Location

end PatternAction

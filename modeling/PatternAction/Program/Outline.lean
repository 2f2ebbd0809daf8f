import PatternAction.Outline
import PatternAction.Program

namespace PatternAction

open Outline

def Location.outline (l : Location) : Outline :=
  record "SourceLocation"
    [("line", leaf (toString l.line)), ("column", leaf (toString l.column))]

def BinaryOp.label : BinaryOp → String
  | .arithmetic .add => "Add"
  | .arithmetic .sub => "Sub"
  | .arithmetic .mul => "Mul"
  | .arithmetic .div => "Div"
  | .arithmetic .mod => "Mod"
  | .arithmetic .pow => "Pow"
  | .comparison .lt => "Lt"
  | .comparison .le => "Le"
  | .comparison .gt => "Gt"
  | .comparison .ge => "Ge"
  | .comparison .eq => "Eq"
  | .comparison .ne => "Ne"
  | .and => "And"
  | .or => "Or"
  | .concat => "Concat"

def UnaryOp.label : UnaryOp → String
  | .neg => "Neg"
  | .pos => "Pos"
  | .not => "Not"

def Step.label : Step → String
  | .preIncrement => "PreIncrement"
  | .preDecrement => "PreDecrement"
  | .postIncrement => "PostIncrement"
  | .postDecrement => "PostDecrement"

mutual

def Expr.outline : Expr → Outline
  | .constant s l => tuple "Constant" [text s, l.outline]
  | .pattern s l => tuple "Pattern" [text s, l.outline]
  | .name s l =>
    record "Var" [("name", text s), ("index", ofOption none), ("location", l.outline)]
  | .element s index l =>
    record "Var"
      [("name", text s), ("index", ofOption (some index.outline)), ("location", l.outline)]
  | .field index l => tuple "Field" [index.outline, l.outline]
  | .binary op left right l =>
    record "Binary"
      [("left", left.outline), ("op", leaf op.label), ("right", right.outline),
       ("location", l.outline)]
  | .unary op operand l =>
    record "Unary" [("op", leaf op.label), ("operand", operand.outline), ("location", l.outline)]
  | .assign target value l =>
    record "Assign"
      [("target", target.outline), ("value", value.outline), ("location", l.outline)]
  | .step op target l => tuple op.label [target.outline, l.outline]
  | .conditional condition yes no l =>
    record "Ternary"
      [("condition", condition.outline), ("then_expr", yes.outline), ("else_expr", no.outline),
       ("location", l.outline)]
  | .call function args l =>
    record "Call"
      [("name", text function), ("args", list (Expr.outlines args)), ("location", l.outline)]
  | .member key array l =>
    record "In" [("key", key.outline), ("array", array.outline), ("location", l.outline)]
  | .search subject source negated l =>
    record "Match"
      [("expr", subject.outline), ("pattern", text source),
       ("negated", leaf (if negated then "true" else "false")), ("location", l.outline)]

def Expr.outlines : List Expr → List Outline
  | [] => []
  | e :: rest => e.outline :: Expr.outlines rest

end

mutual

def Stmt.outline : Stmt → Outline
  | .expr e => tuple "Expr" [e.outline]
  | .if b => b.outline
  | .while condition body l =>
    record "While"
      [("condition", condition.outline), ("body", body.outline), ("location", l.outline)]
  | .doWhile body condition l =>
    record "DoWhile"
      [("body", body.outline), ("condition", condition.outline), ("location", l.outline)]
  | .for init condition update body l =>
    record "For"
      [("init", ofOption (init.map Expr.outline)),
       ("condition", ofOption (condition.map Expr.outline)),
       ("update", ofOption (update.map Expr.outline)), ("body", body.outline),
       ("location", l.outline)]
  | .forIn var array body l =>
    record "ForIn"
      [("var", text var), ("array", text array), ("body", body.outline),
       ("location", l.outline)]
  | .break l => record "Break" [("location", l.outline)]
  | .continue l => record "Continue" [("location", l.outline)]
  | .return value l =>
    record "Return" [("value", ofOption (value.map Expr.outline)), ("location", l.outline)]
  | .delete array index l =>
    record "Delete"
      [("array", text array), ("index", ofOption (index.map Expr.outline)),
       ("location", l.outline)]

def Branch.outline : Branch → Outline
  | .mk condition action otherwise l =>
    record "If"
      [("condition", condition.outline), ("then_block", action.outline),
       ("else_branch", otherwise.outline), ("location", l.outline)]

def Otherwise.outline : Otherwise → Outline
  | .nothing => ofOption none
  | .block b => ofOption (some (tuple "Block" [b.outline]))
  | .branch b => ofOption (some (tuple "If" [b.outline]))

def Block.outline : Block → Outline
  | .mk statements l =>
    record "Block"
      [("statements", list (Stmt.outlines statements)), ("condition", ofOption none),
       ("location", l.outline)]

def Stmt.outlines : List Stmt → List Outline
  | [] => []
  | s :: rest => s.outline :: Stmt.outlines rest

end

def Rule.outline (r : Rule) : Outline :=
  record "Block"
    [("statements", list (Stmt.outlines r.action.statements)),
     ("condition", ofOption (r.condition.map Expr.outline)),
     ("location", r.action.location.outline)]

def Function.outline (f : Function) : Outline :=
  record "FunctionDef"
    [("name", text f.name), ("params", list (Expr.outlines f.params)), ("body", f.body.outline),
     ("location", f.location.outline)]

def Program.outline (p : Program) : Outline :=
  record "Program"
    [("begin_blocks", list (p.begins.map Block.outline)),
     ("end_blocks", list (p.ends.map Block.outline)),
     ("blocks", list (p.rules.map Rule.outline)),
     ("functions", list (p.functions.map Function.outline))]

end PatternAction

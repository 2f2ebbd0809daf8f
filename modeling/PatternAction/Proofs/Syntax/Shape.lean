import PatternAction.Proofs.Syntax.Rendering

namespace PatternAction

section

-- Where nodes can stand, and whether `printf` may be called without a format.
variable (stands : Location → Prop) (bare : Prop)

inductive Expr.WellFormed : Expr → Prop
  | constant    : stands l → WellFormed (.constant text l)
  | pattern     : stands l → WellFormed (.pattern source l)
  -- The word by itself measures the record.
  | name        : stands l → x ≠ "length" → WellFormed (.name x l)
  | element     : stands l → WellFormed index → WellFormed (.element array index l)
  | field       : stands l → WellFormed index → WellFormed (.field index l)
  | binary      : stands l → WellFormed left → WellFormed right →
                    WellFormed (.binary op left right l)
  | unary       : stands l → WellFormed operand → WellFormed (.unary op operand l)
  | assign      : stands l → WellFormed target → WellFormed value →
                    WellFormed (.assign target value l)
  | step        : stands l → (op.isBefore = false → target.isTarget) → WellFormed target →
                    WellFormed (.step op target l)
  | conditional : stands l → WellFormed test → WellFormed yes → WellFormed no →
                    WellFormed (.conditional test yes no l)
  | call        : stands l → (function = "printf" → args = [] → bare) →
                    (∀ e ∈ args, WellFormed e) → WellFormed (.call function args l)
  | member      : stands l → WellFormed key → WellFormed array → WellFormed (.member key array l)
  | search      : stands l → WellFormed subject → WellFormed (.search subject source negated l)

theorem Expr.WellFormed.location {e : Expr} (h : e.WellFormed stands bare) :
    stands e.location := by
  cases h <;> assumption

mutual

inductive Stmt.WellFormed : Stmt → Prop
  | expr     : Expr.WellFormed stands bare e → Stmt.WellFormed (.expr e)
  | if       : Branch.WellFormed b → Stmt.WellFormed (.if b)
  | while    : stands l → Expr.WellFormed stands bare test → Block.WellFormed body →
                 Stmt.WellFormed (.while test body l)
  | doWhile  : stands l → Block.WellFormed body → Expr.WellFormed stands bare test →
                 Stmt.WellFormed (.doWhile body test l)
  | for      : stands l → (∀ e ∈ init, Expr.WellFormed stands bare e) →
                 (∀ e ∈ test, Expr.WellFormed stands bare e) →
                 (∀ e ∈ update, Expr.WellFormed stands bare e) → Block.WellFormed body →
                 Stmt.WellFormed (.for init test update body l)
  | forIn    : stands l → Block.WellFormed body → Stmt.WellFormed (.forIn x array body l)
  | break    : stands l → Stmt.WellFormed (.break l)
  | continue : stands l → Stmt.WellFormed (.continue l)
  | return   : stands l → (∀ e ∈ value, Expr.WellFormed stands bare e) →
                 Stmt.WellFormed (.return value l)
  | delete   : stands l → (∀ e ∈ index, Expr.WellFormed stands bare e) →
                 Stmt.WellFormed (.delete array index l)

inductive Branch.WellFormed : Branch → Prop
  | mk : stands l → Expr.WellFormed stands bare test → Block.WellFormed action →
           Otherwise.WellFormed otherwise → Branch.WellFormed (.mk test action otherwise l)

inductive Otherwise.WellFormed : Otherwise → Prop
  | nothing : Otherwise.WellFormed .nothing
  | block   : Block.WellFormed b → Otherwise.WellFormed (.block b)
  | branch  : Branch.WellFormed b → Otherwise.WellFormed (.branch b)

inductive Block.WellFormed : Block → Prop
  | mk : stands l → (∀ s ∈ body, Stmt.WellFormed s) → Block.WellFormed (.mk body l)

end

structure Rule.WellFormed (r : Rule) : Prop where
  condition : ∀ e ∈ r.condition, e.WellFormed stands bare
  action    : r.action.WellFormed stands bare

structure Function.WellFormed (f : Function) : Prop where
  location : stands f.location
  params   : ∀ e ∈ f.params, e.WellFormed stands bare
  body     : f.body.WellFormed stands bare

structure Program.WellFormed (p : Program) : Prop where
  begins    : ∀ b ∈ p.begins, b.WellFormed stands bare
  ends      : ∀ b ∈ p.ends, b.WellFormed stands bare
  rules     : ∀ r ∈ p.rules, r.WellFormed stands bare
  functions : ∀ f ∈ p.functions, f.WellFormed stands bare
  distinct  : (p.functions.map (·.name)).Nodup

end

end PatternAction

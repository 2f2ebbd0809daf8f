import PatternAction.Proofs.Syntax.Rendering

namespace PatternAction

section Places

mutual

-- Two statements that differ in places only have the same unplaced form.
def Stmt.unplaced : Stmt → Stmt
  | .expr e                      => .expr e.unplaced
  | .if b                        => .if b.unplaced
  | .while test body _           => .while test.unplaced body.unplaced default
  | .doWhile body test _         => .doWhile body.unplaced test.unplaced default
  | .for init test update body _ =>
    .for (init.map Expr.unplaced) (test.map Expr.unplaced) (update.map Expr.unplaced) body.unplaced
      default
  | .forIn x array body _        => .forIn x array body.unplaced default
  | .break _                     => .break default
  | .continue _                  => .continue default
  | .return value _              => .return (value.map Expr.unplaced) default
  | .delete array index _        => .delete array (index.map Expr.unplaced) default

def Branch.unplaced : Branch → Branch
  | .mk test action otherwise _ => .mk test.unplaced action.unplaced otherwise.unplaced default

def Otherwise.unplaced : Otherwise → Otherwise
  | .nothing  => .nothing
  | .block b  => .block b.unplaced
  | .branch b => .branch b.unplaced

def Block.unplaced : Block → Block
  | .mk statements _ => .mk (Stmt.everyUnplaced statements) default

def Stmt.everyUnplaced : List Stmt → List Stmt
  | []        => []
  | s :: rest => s.unplaced :: Stmt.everyUnplaced rest

end

def Rule.unplaced (r : Rule) : Rule where
  condition := r.condition.map Expr.unplaced
  action    := r.action.unplaced

def Function.unplaced (f : Function) : Function where
  name     := f.name
  params   := Expr.everyUnplaced f.params
  body     := f.body.unplaced
  location := default

def Program.unplaced (p : Program) : Program where
  begins    := p.begins.map Block.unplaced
  ends      := p.ends.map Block.unplaced
  rules     := p.rules.map Rule.unplaced
  functions := p.functions.map Function.unplaced

end Places

section Forms

def Keyword.prints (k : Keyword) : Prop :=
  k = .print ∨ k = .printf

-- Whether an expression can be a statement: if it prints, its arguments have to be writable.
def Expr.isAction : Expr → Bool
  | call function args l =>
    match Keyword.calling? function with
    | some .print  => everyAll isRegular args
    | some .printf => !args.isEmpty && everyAll isRegular args
    | _            => (call function args l).isWritable
  | e => e.isWritable

mutual

def Stmt.isWritable : Stmt → Bool
  | .expr e                      => e.isAction
  | .if b                        => b.isWritable
  | .while test body _           => test.isWritable && body.isWritable
  | .doWhile body test _         => body.isWritable && test.isWritable
  | .for init test update body _ =>
    init.all Expr.isWritable && test.all Expr.isWritable && update.all Expr.isWritable &&
      body.isWritable
  | .forIn _ _ body _            => body.isWritable
  | .break _                     => true
  | .continue _                  => true
  | .return value _              => value.all Expr.isWritable
  | .delete _ index _            => index.all Expr.isWritable

def Branch.isWritable : Branch → Bool
  | .mk test action otherwise _ => test.isWritable && action.isWritable && otherwise.isWritable

def Otherwise.isWritable : Otherwise → Bool
  | .nothing  => true
  | .block b  => b.isWritable
  | .branch b => b.isWritable

def Block.isWritable : Block → Bool
  | .mk statements _ => Stmt.everyWritable statements

def Stmt.everyWritable : List Stmt → Bool
  | []        => true
  | s :: rest => s.isWritable && Stmt.everyWritable rest

end

def Rule.isWritable (r : Rule) : Bool :=
  r.condition.all Expr.isWritable && r.action.isWritable

def Function.isWritable (f : Function) : Bool :=
  Expr.everyAll Expr.isRegular f.params && f.body.isWritable

def Program.isWritable (p : Program) : Bool :=
  p.begins.all Block.isWritable && p.ends.all Block.isWritable && p.rules.all Rule.isWritable &&
    p.functions.all Function.isWritable

end Forms

section Tokens

open Kind (enclosed placed)

def Kind.separators (i : Nat) : List Kind :=
  .replicate i .separator

open Kind (separators)

mutual

-- The ways to write an expression.
inductive Expr.Written : Expr → List Kind → Prop
  | number      : Written (.constant text l) [.number text]
  | string      : Written (.constant text l) [.string text]
  | pattern     : Written (.pattern source l) [.pattern source]
  | name        : Written (.name x l) [.word x]
  | element     : Written index ks →
                    Written (.element array index l)
                      (.word array :: .symbol .leftBracket :: (ks ++ [.symbol .rightBracket]))
  | field       : Written index ks → Written (.field index l) (.symbol .dollar :: enclosed ks)
  | binary      : op.symbol? = some s → Written left ks₁ → Written right ks₂ →
                    Written (.binary op left right l) (enclosed ks₁ ++ .symbol s :: enclosed ks₂)
  | concat      : Written left ks₁ → Written right ks₂ →
                    Written (.binary .concat left right l) (enclosed ks₁ ++ enclosed ks₂)
  | unary       : Written operand ks →
                    Written (.unary op operand l) (.symbol op.symbol :: enclosed ks)
  | assign      : Written target ks₁ → Written value ks₂ →
                    Written (.assign target value l)
                      (enclosed ks₁ ++ .symbol .assign :: enclosed ks₂)
  | stepBefore  : op.isBefore → Written target ks →
                    Written (.step op target l) (.symbol op.symbol :: enclosed ks)
  | stepAfter   : op.isBefore = false → Written target ks →
                    Written (.step op target l) (enclosed ks ++ [.symbol op.symbol])
  | conditional : Written test ks₁ → Written yes ks₂ → Written no ks₃ →
                    Written (.conditional test yes no l)
                      (enclosed ks₁ ++
                        .symbol .question :: (enclosed ks₂ ++ .symbol .colon :: enclosed ks₃))
  | call        : Keyword.calling? function = none → Listed args ks →
                    Written (.call function args l) (.word function :: enclosed ks)
  | keyword     : Keyword.calling? function = some k → Listed args ks →
                    Written (.call function args l) (.keyword k :: ks)
  | member      : Written key ks₁ → Written array ks₂ →
                    Written (.member key array l) (enclosed ks₁ ++ .keyword .in :: enclosed ks₂)
  | search      : Written subject ks → (bare : Bool) →
                    Written (.search subject source negated l)
                      (enclosed ks ++ .symbol (if negated then .notMatches else .matches) ::
                        placed bare [.pattern source])

-- Expressions with commas between them.
inductive Expr.Listed : List Expr → List Kind → Prop
  | nil    : Listed [] []
  | single : Expr.Written e ks → Listed [e] ks
  | cons   : Expr.Written e ks₁ → Listed (e' :: es) ks₂ →
               Listed (e :: e' :: es) (ks₁ ++ .symbol .comma :: ks₂)

end

-- A part that may be left out.
inductive Expr.Optional : Option Expr → List Kind → Prop
  | none : Optional none []
  | some : Expr.Written e ks → Optional (some e) ks

mutual

-- The ways to write a statement. The first clause of a counting loop is in parentheses.
inductive Stmt.Written : Stmt → List Kind → Prop
  | expr      : Expr.Written e ks → Stmt.Written (.expr e) ks
  | print     : Keyword.calling? function = some k → k.prints → Expr.Listed args ks →
                  Stmt.Written (.expr (.call function args l)) (.keyword k :: enclosed ks)
  | if        : Branch.Written b ks → Stmt.Written (.if b) (.keyword .if :: ks)
  | while     : Expr.Written test ks → Block.Written body bs →
                  Stmt.Written (.while test body l)
                    (.keyword .while :: (enclosed ks ++ (separators i ++ bs)))
  | doWhile   : Block.Written body bs → Expr.Written test ks →
                  Stmt.Written (.doWhile body test l)
                    (.keyword .do ::
                      (separators i ++ bs ++ (separators j ++ .keyword .while :: enclosed ks)))
  | for       : Expr.Optional init ks₁ → Expr.Optional test ks₂ → Expr.Optional update ks₃ →
                  Block.Written body bs →
                  Stmt.Written (.for init test update body l)
                    (.keyword .for :: .symbol .leftParen ::
                      (placed init.isNone ks₁ ++ .separator :: (ks₂ ++ .separator ::
                        (ks₃ ++ .symbol .rightParen :: (separators i ++ bs)))))
  | forIn     : Block.Written body bs →
                  Stmt.Written (.forIn x array body l)
                    (.keyword .for :: .symbol .leftParen :: .word x :: .keyword .in ::
                      .word array :: .symbol .rightParen :: (separators i ++ bs))
  | break     : Stmt.Written (.break l) [.keyword .break]
  | continue  : Stmt.Written (.continue l) [.keyword .continue]
  | return    : Expr.Optional value ks → Stmt.Written (.return value l) (.keyword .return :: ks)
  | deleteAll : Stmt.Written (.delete array none l) [.keyword .delete, .word array]
  | delete    : Expr.Written index ks →
                  Stmt.Written (.delete array (some index) l)
                    (.keyword .delete :: .word array :: .symbol .leftBracket ::
                      (ks ++ [.symbol .rightBracket]))

inductive Branch.Written : Branch → List Kind → Prop
  | mk : Expr.Written test ks → Block.Written action bs → Otherwise.Written otherwise os →
           Branch.Written (.mk test action otherwise l) (enclosed ks ++ (separators i ++ bs ++ os))

inductive Otherwise.Written : Otherwise → List Kind → Prop
  | nothing : Otherwise.Written .nothing []
  | block   : Block.Written b bs →
                Otherwise.Written (.block b)
                  (separators i ++ .keyword .else :: (separators j ++ bs))
  | branch  : Branch.Written b ks →
                Otherwise.Written (.branch b)
                  (separators i ++ .keyword .else :: (separators j ++ .keyword .if :: ks))

inductive Block.Written : Block → List Kind → Prop
  | mk : Stmt.EveryWritten statements ks →
           Block.Written (.mk statements l)
             (.symbol .leftBrace :: (separators i ++ (ks ++ [.symbol .rightBrace])))

-- Statements, each with at least one separator after it.
inductive Stmt.EveryWritten : List Stmt → List Kind → Prop
  | nil  : Stmt.EveryWritten [] []
  | cons : Stmt.Written s ks₁ → Stmt.EveryWritten ss ks₂ →
             Stmt.EveryWritten (s :: ss) (ks₁ ++ (separators (i + 1) ++ ks₂))

end

-- The parts that a program is made of, in the order in which they stand.
inductive Item
  | function (f : Function)
  | begin (b : Block)
  | finish (b : Block)
  | rule (r : Rule)

def Program.add (p : Program) : Item → Program
  | .function f => { p with functions := p.functions ++ [f] }
  | .begin b    => { p with begins := p.begins ++ [b] }
  | .finish b   => { p with ends := p.ends ++ [b] }
  | .rule r     => { p with rules := p.rules ++ [r] }

inductive Item.Written : Item → List Kind → Prop
  | function : Expr.Listed f.params ks → Block.Written f.body bs →
                 Item.Written (.function f)
                   (.keyword .function :: .word f.name :: (enclosed ks ++ (separators i ++ bs)))
  | begin    : Block.Written b bs →
                 Item.Written (.begin b) (.keyword .begin :: (separators i ++ bs))
  | finish   : Block.Written b bs →
                 Item.Written (.finish b) (.keyword .finish :: (separators i ++ bs))
  | always   : Block.Written b bs → Item.Written (.rule ⟨none, b⟩) bs
  | when     : Expr.Written e ks → Block.Written b bs →
                 Item.Written (.rule ⟨some e, b⟩) (ks ++ (separators i ++ bs))

inductive Item.EveryWritten : List Item → List Kind → Prop
  | nil  : EveryWritten [] []
  | cons : Item.Written item ks₁ → EveryWritten items ks₂ →
             EveryWritten (item :: items) (ks₁ ++ (separators (i + 1) ++ ks₂))

-- The ways to write a program: its functions, blocks and rules may stand in between each other.
inductive Program.Written : Program → List Kind → Prop
  | mk : Item.EveryWritten items ks →
           Program.Written (items.foldl Program.add {}) (separators i ++ ks)

end Tokens

end PatternAction

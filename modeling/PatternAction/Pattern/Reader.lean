import PatternAction.Pattern.Class

namespace PatternAction

namespace Pattern

structure Flags where
  ignoreCase : Bool := false
  multiLine : Bool := false
  dotAll : Bool := false
  swapGreed : Bool := false
  extended : Bool := false
  crlf : Bool := false
  unicode : Bool := true

namespace Flags

def set? (f : Flags) (on : Bool) : Char → Option Flags
  | 'i' => some { f with ignoreCase := on }
  | 'm' => some { f with multiLine := on }
  | 's' => some { f with dotAll := on }
  | 'U' => some { f with swapGreed := on }
  | 'x' => some { f with extended := on }
  | 'R' => some { f with crlf := on }
  | 'u' => some { f with unicode := on }
  | _ => none

end Flags

-- The state of reading: what is left, the flags in force and the group names used so far.
structure Reading where
  rest : List Char
  flags : Flags := {}
  names : List String := []

abbrev Read := StateT Reading Option

namespace Read

def peek : Read (Option Char) := do return (← get).rest.head?

def atEnd : Read Bool := do return (← get).rest.isEmpty

def char : Read Char := do (← get).rest.head?

def bump : Read Unit := modify fun r => { r with rest := r.rest.tail }

def flags : Read Flags := do return (← get).flags

-- Drops blanks and comments; `comment` says whether a comment is open, which runs to the end of its
-- line.
def dropSpace (comment : Bool) : List Char → List Char
  | [] => []
  | c :: cs =>
    if comment then dropSpace (c ≠ '\n') cs
    else if Text.isBlank c then dropSpace false cs
    else if c = '#' then dropSpace true cs
    else c :: cs

def space : Read Unit :=
  modify fun r => if r.flags.extended then { r with rest := dropSpace false r.rest } else r

def bumpSpace : Read Unit := do
  bump
  space

def accept (s : String) : Read Bool := do
  let r ← get
  if s.toList.isPrefixOf r.rest then
    set { r with rest := r.rest.drop s.length }
    return true
  else return false

inductive Primitive
  | literal (c : Char) (byte : Bool)
  | set (s : CharSet)
  | node (p : Pattern)

-- Where a look between two characters holds, by the words on its two sides.
def wordLook (isWord : CharSet) (holds : Bool → Bool → Bool) : Pattern :=
  .look fun before after => holds (before.any isWord) (after.any isWord)

-- Folds case if the flags say so, then complements if `negated`. A complement reaches beyond ASCII,
-- which is refused without the flag for it.
def finishSet (negated : Bool) (s : CharSet) : Read CharSet := do
  let f ← flags
  let s := if f.ignoreCase then
    if f.unicode then s.folded else s.foldedAscii
  else s
  if negated then
    if f.unicode then return s.compl else failure
  else return s

def shorthandSet (letter : Char) : Read CharSet := do
  let f ← flags
  let s : CharSet ← match letter.toLower with
    | 'd' => pure (if f.unicode then CharSet.digit else Char.isDigit)
    | 's' => pure (if f.unicode then Text.isBlank else CharSet.asciiBlank)
    | 'w' => pure (if f.unicode then CharSet.word else CharSet.asciiWord)
    | _ => failure
  if letter.isUpper then
    if f.unicode then return s.compl else failure
  else return s

def isHexDigit (c : Char) : Bool :=
  c.isDigit || ('a' ≤ c && c ≤ 'f') || ('A' ≤ c && c ≤ 'F')

def charOfHex (ds : List Char) : Read Char := do
  let value (c : Char) : Nat :=
    if c.isDigit then c.toNat - 48 else c.toLower.toNat - 87
  let n := ds.foldl (fun n c => 16 * n + value c) 0
  if ds ≠ [] ∧ n.isValidChar then return Char.ofNat n else failure

def hexDigits : Nat → Read (List Char)
  | 0 => return []
  | n + 1 => do
    let c ← char
    if isHexDigit c then
      bumpSpace
      return c :: (← hexDigits n)
    else failure

def braced : Nat → Read (List Char)
  | 0 => failure
  | n + 1 => do
    let c ← char
    if c = '\x7d' then
      bump
      return []
    else
      bumpSpace
      return c :: (← braced n)

def hexEscape (n : Nat) : Read Primitive := do
  bumpSpace
  if (← char) = '\x7b' then
    bumpSpace
    let ds ← braced (← get).rest.length
    space
    if ds.all isHexDigit then return .literal (← charOfHex ds) false else failure
  else return .literal (← charOfHex (← hexDigits n)) (n = 2)

def splitAt? (mark : List Char) : List Char → Option (String × String)
  | [] => none
  | c :: cs =>
    if mark.isPrefixOf (c :: cs) then some ("", String.ofList ((c :: cs).drop mark.length))
    else (splitAt? mark cs).map fun (a, b) => (String.ofList [c] ++ a, b)

def propertySet : Read CharSet := do
  unless (← flags).unicode do failure
  let negated := (← char) = 'P'
  bumpSpace
  let c ← char
  if c = '\x7b' then
    bumpSpace
    let name ← braced (← get).rest.length
    match splitAt? ['!', '='] name, splitAt? [':'] name, splitAt? ['='] name with
    | some (property, value), _, _ => finishSet (!negated) (← CharSet.valued? property value)
    | none, some (property, value), _ | none, none, some (property, value) =>
      finishSet negated (← CharSet.valued? property value)
    | none, none, none => finishSet negated (← CharSet.named? (String.ofList name))
  else
    if c = '\\' then failure
    bumpSpace
    finishSet negated (← CharSet.named? (String.ofList [c]))

def namedBoundary? (isWord : CharSet) : Read (Option Pattern) := do
  let saved ← get
  bumpSpace
  let isNameChar (c : Char) : Bool := c.isAlpha || c = '-'
  if isNameChar (← char) then
    let name ← braced (← get).rest.length
    match String.ofList name with
    | "start" => return some (wordLook isWord fun before after => !before && after)
    | "end" => return some (wordLook isWord fun before after => before && !after)
    | "start-half" => return some (wordLook isWord fun before _ => !before)
    | "end-half" => return some (wordLook isWord fun _ after => !after)
    | _ => failure
  else
    set saved
    return none

def isMeta (c : Char) : Bool := "\\.+*?()|[]\x7b\x7d^$#&-~".toList.contains c

-- What stands after a backslash. Digits would refer back to groups, which is refused.
def escape : Read Primitive := do
  bump
  let c ← char
  let isWord := if (← flags).unicode then CharSet.word else CharSet.asciiWord
  let literal (c : Char) : Read Primitive := do
    bump
    return .literal c false
  let node (p : Pattern) : Read Primitive := do
    bump
    return .node p
  match c with
  | 'x' => hexEscape 2
  | 'u' => hexEscape 4
  | 'U' => hexEscape 8
  | 'p' | 'P' => return .set (← propertySet)
  | 'd' | 's' | 'w' | 'D' | 'S' | 'W' =>
    bump
    return .set (← shorthandSet c)
  | 'a' => literal '\x07'
  | 'f' => literal '\x0c'
  | 't' => literal '\t'
  | 'n' => literal '\n'
  | 'r' => literal '\r'
  | 'v' => literal '\x0b'
  | 'A' => node (.look fun before _ => before.isNone)
  | 'z' => node (.look fun _ after => after.isNone)
  | 'B' => node (wordLook isWord (· == ·))
  | '<' => node (wordLook isWord fun before after => !before && after)
  | '>' => node (wordLook isWord fun before after => before && !after)
  | 'b' =>
    bump
    let plain := wordLook isWord (· != ·)
    if (← peek) = some '\x7b' then
      return .node ((← namedBoundary? isWord).getD plain)
    else return .node plain
  | c =>
    if isMeta c || (c.toNat < 128 && !c.isAlphanum) then literal c else failure

abbrev Nested := CharSet × Nat

-- The members read so far between two operators of a bracketed set.
structure Members where
  set : CharSet := fun _ => false
  count : Nat := 0
  depth : Nat := 0

namespace Members

def add (m : Members) (s : CharSet) (depth : Nat) : Members :=
  ⟨m.set.union s, m.count + 1, max m.depth depth⟩

-- Several members nest one level deeper than a single one.
def nested (m : Members) : Nested := (m.set, if m.count > 1 then m.depth + 1 else m.depth)

end Members

def memberSet : Primitive → Read CharSet
  | .literal c _ => do
    if !(← flags).unicode && c.toNat ≥ 128 then failure
    return CharSet.single c
  | .set s => return s
  | .node _ => failure

def member : Read Primitive := do
  let c ← char
  if c = '\\' then escape
  else
    bump
    return .literal c false

-- The character after the next, space apart.
def peekBeyond : Read (Option Char) := do
  let r ← get
  let rest := r.rest.tail
  return (if r.flags.extended then dropSpace false rest else rest).head?

-- A range of characters or a single member.
def memberRange : Read CharSet := do
  let first ← member
  space
  let c ← char
  let beyond ← peekBeyond
  if c ≠ '-' ∨ beyond = some ']' ∨ beyond = some '-' then memberSet first
  else
    bumpSpace
    match first, ← member with
    | .literal lo _, .literal hi _ =>
      if !(← flags).unicode && hi.toNat ≥ 128 then failure
      if lo ≤ hi then return CharSet.range lo hi else failure
    | _, _ => failure

-- An ASCII set named between colons, if there is one.
def posixSet? : Read (Option CharSet) := do
  let saved ← get
  if ← accept "[:" then
    let negated ← accept "^"
    let r ← get
    let name := r.rest.takeWhile (· ≠ ':')
    set { r with rest := r.rest.dropWhile (· ≠ ':') }
    if ← accept ":]" then
      if let some s := CharSet.posix? (String.ofList name) then
        return some (← finishSet negated s)
  set saved
  return none

-- Takes leading hyphens, which stand for themselves.
def hyphens : Nat → Members → Read Members
  | 0, m => return m
  | n + 1, m => do
    if (← char) = '-' then
      bumpSpace
      hyphens n (m.add (CharSet.single '-') 0)
    else return m

-- The operator between two parts of a bracketed set.
def setOperator? : Read (Option (CharSet → CharSet → CharSet)) := do
  if ← accept "&&" then return some CharSet.inter
  else if ← accept "--" then return some CharSet.diff
  else if ← accept "~~" then return some CharSet.symmDiff
  else return none

-- What was read before the current part of a bracketed set: an operator and its left side.
abbrev Pending := Option ((CharSet → CharSet → CharSet) × Nested)

def joined (before : Pending) (m : Members) : Read Nested := do
  let (right, depth) := m.nested
  match before with
  | none => return (right, depth)
  | some (op, left, leftDepth) =>
    return (op (← finishSet false left) (← finishSet false right), max leftDepth depth + 1)

mutual

def bracketed : Nat → Read Nested
  | 0 => failure
  | n + 1 => do
    bumpSpace
    let negated := (← char) = '^'
    if negated then bumpSpace
    let m ← hyphens n {}
    let m ← if m.count = 0 ∧ (← char) = ']' then do
        bumpSpace
        pure (m.add (CharSet.single ']') 0)
      else pure m
    let (s, depth) ← setParts n none m
    return (← finishSet negated s, depth + 1)

def setParts : Nat → Pending → Members → Read Nested
  | 0, _, _ => failure
  | n + 1, before, m => do
    space
    match ← char with
    | '[' =>
      match ← posixSet? with
      | some s => setParts n before (m.add s 0)
      | none =>
        let (s, depth) ← bracketed n
        setParts n before (m.add s depth)
    | ']' =>
      bump
      joined before m
    | _ =>
      match ← setOperator? with
      | some op => setParts n (some (op, ← joined before m)) {}
      | none => setParts n before (m.add (← memberRange) 0)

end

def decimal : Read Nat := do
  let blank (r : Reading) : Reading := { r with rest := r.rest.dropWhile Text.isBlank }
  modify blank
  let r ← get
  let ds := r.rest.takeWhile Char.isDigit
  set { r with rest := r.rest.dropWhile Char.isDigit }
  modify blank
  space
  let n := ds.foldl (fun n c => 10 * n + (c.toNat - 48)) 0
  if ds ≠ [] ∧ n < 2 ^ 32 then return n else failure

def bounds : Read (Nat × Option Nat) := do
  bumpSpace
  let lo ← decimal
  let c ← char
  if c = ',' then
    bumpSpace
    if (← char) = '\x7d' then
      bumpSpace
      return (lo, none)
    else
      let hi ← decimal
      if (← char) = '\x7d' ∧ lo ≤ hi then
        bumpSpace
        return (lo, some hi)
      else failure
  else if c = '\x7d' then
    bumpSpace
    return (lo, some lo)
  else failure

-- A part of a pattern with the depth of its nesting; a setting of flags has no pattern.
structure Item where
  pattern : Option Pattern
  depth : Nat := 0

-- The last part repeated. There has to be one, and it may not be a setting of flags.
def repetition (min : Nat) (max : Option Nat) : List Item → Read (List Item)
  | ⟨some p, depth⟩ :: before => do
    let lazily ← accept "?"
    let greedy := lazily == (← flags).swapGreed
    return ⟨some (.repeated min max greedy p), depth + 1⟩ :: before
  | _ => failure

def literalPattern (c : Char) (byte : Bool) : Read Pattern := do
  let f ← flags
  if !f.unicode && c.toNat ≥ 128 && (byte || f.ignoreCase) then failure
  return .one (← finishSet false (CharSet.single c))

-- Any character, except the ends of lines unless the flags say so.
def dotPattern : Read Pattern := do
  let f ← flags
  unless f.unicode do failure
  return .one fun c => f.dotAll || !(c = '\n' || (f.crlf && c = '\r'))

def lineStart (f : Flags) : Pattern :=
  .look fun before after =>
    before.isNone || (f.multiLine && (before = some '\n' ||
      (f.crlf && before = some '\r' && after ≠ some '\n')))

def lineEnd (f : Flags) : Pattern :=
  .look fun before after =>
    after.isNone || (f.multiLine &&
      (if f.crlf then after = some '\r' || (after = some '\n' && before ≠ some '\r')
      else after = some '\n'))

def isNameChar (first : Bool) (c : Char) : Bool :=
  c = '_' || Text.isAlphabetic c || (!first && (c = '.' || c = '[' || c = ']' || c.isDigit ||
    (match Text.Category.ofChar c with
      | .decimalNumber | .letterNumber | .otherNumber => true
      | _ => false)))

-- A group name up to its closing angle bracket; no name is used twice.
def groupName : Read Unit := do
  let r ← get
  let cs := r.rest.takeWhile (· ≠ '>')
  let name := String.ofList cs
  if isNameChar true (cs.headD '0') ∧ cs.all (isNameChar false) ∧ !r.names.contains name then
    set { r with rest := r.rest.dropWhile (· ≠ '>'), names := name :: r.names }
    unless ← accept ">" do failure
  else failure

-- Letters of flags up to a colon or a closing parenthesis. A hyphen switches off those after it; no
-- letter may be given twice.
def flagLetters : Nat → List Char → Flags → Read (List Char × Flags)
  | 0, _, _ => failure
  | n + 1, used, f => do
    let c ← char
    if c = ':' ∨ c = ')' then
      if used.head? = some '-' then failure else return (used, f)
    else if used.contains c then failure
    else
      bump
      if c = '-' then flagLetters n (c :: used) f
      else flagLetters n (c :: used) (← f.set? (!used.contains '-') c)

-- The parts of a sequence in order, several of them nesting one level deeper than a single one.
def sequence (items : List Item) : Pattern × Nat :=
  let patterns := items.reverse.filterMap Item.pattern
  let depth := items.foldl (fun d i => max d i.depth) 0
  (match patterns.reverse with
    | [] => .empty
    | last :: before => before.foldl (fun p q => .seq q p) last,
   if items.length > 1 then depth + 1 else depth)

mutual

def alternatives : Nat → Read (Pattern × Nat × Bool)
  | 0 => failure
  | n + 1 => do
    let (p, depth) ← parts n []
    if ← accept "|" then
      let (q, depth', _) ← alternatives n
      return (.alt p q, max depth depth', true)
    else return (p, depth, false)

def choice : Nat → Read (Pattern × Nat)
  | 0 => failure
  | n + 1 => do
    let (p, depth, several) ← alternatives n
    return (p, if several then depth + 1 else depth)

-- The parts of one alternative, after those read so far, the last of which comes first.
def parts : Nat → List Item → Read (Pattern × Nat)
  | 0, _ => failure
  | n + 1, items => do
    space
    let add (p : Pattern) (depth : Nat) : List Item := ⟨some p, depth⟩ :: items
    match ← peek with
    | none | some ')' | some '|' => return sequence items
    | some '(' => parts n ((← group n) :: items)
    | some '[' =>
      let (s, depth) ← bracketed n
      parts n (add (.one s) depth)
    | some '?' =>
      bump
      parts n (← repetition 0 (some 1) items)
    | some '*' =>
      bump
      parts n (← repetition 0 none items)
    | some '+' =>
      bump
      parts n (← repetition 1 none items)
    | some '\x7b' =>
      let (lo, hi) ← bounds
      parts n (← repetition lo hi items)
    | some '\\' =>
      match ← escape with
      | .literal c byte => parts n (add (← literalPattern c byte) 0)
      | .set s => parts n (add (.one s) 0)
      | .node p => parts n (add p 0)
    | some '.' =>
      bump
      parts n (add (← dotPattern) 0)
    | some '^' =>
      bump
      parts n (add (lineStart (← flags)) 0)
    | some '$' =>
      bump
      parts n (add (lineEnd (← flags)) 0)
    | some c =>
      bump
      parts n (add (← literalPattern c false) 0)

-- A group, or a setting of flags for what follows. Looking around is refused.
def group : Nat → Read Item
  | 0 => failure
  | n + 1 => do
    bumpSpace
    let outer ← flags
    let inner : Read Item := do
      let (p, depth) ← choice n
      unless ← accept ")" do failure
      modify fun r => { r with flags := outer }
      return ⟨some p, depth + 1⟩
    for ahead in ["?=", "?!", "?<=", "?<!"] do
      if ← accept ahead then failure
    if ← accept "?P<" then
      groupName
      inner
    else if ← accept "?<" then
      groupName
      inner
    else if ← accept "?" then
      let (used, f) ← flagLetters n [] outer
      modify fun r => { r with flags := f }
      if ← accept ":" then inner
      else
        bump
        if used.isEmpty then failure else return ⟨none, 0⟩
    else inner

end

-- Constructs may nest this deep.
def nestingLimit : Nat := 250

def pattern (n : Nat) : Read Pattern := do
  let (p, depth) ← choice n
  if (← atEnd) ∧ depth ≤ nestingLimit then return p else failure

end Read

def ofString? (s : String) : Option Pattern :=
  ((Read.pattern (4 * (s.length + 2))).run { rest := s.toList }).map Prod.fst

end Pattern

end PatternAction

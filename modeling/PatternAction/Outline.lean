import PatternAction.Text.Quoted

namespace PatternAction

-- A tree written one item per line, each level indented by four spaces.
inductive Outline
  | leaf (text : String)
  | list (items : List Outline)
  | tuple (name : String) (items : List Outline)
  | record (name : String) (fields : List (String × Outline))

namespace Outline

def indent (lines : List String) : List String := lines.map ("    " ++ ·)

-- Writes `before` at the front of the first line and `after` at the end of the last.
def enclose (before after : String) : List String → List String
  | [] => []
  | [line] => [before ++ line ++ after]
  | first :: rest =>
    (before ++ first) :: (rest.dropLast ++ (rest.getLast?.map (· ++ after)).toList)

mutual

def lines : Outline → List String
  | leaf text => [text]
  | list [] => ["[]"]
  | list items => ["["] ++ indent (itemLines items) ++ ["]"]
  | tuple name items => [name ++ "("] ++ indent (itemLines items) ++ [")"]
  | record name fields => [name ++ " \x7b"] ++ indent (fieldLines fields) ++ ["\x7d"]

def itemLines : List Outline → List String
  | [] => []
  | item :: rest => enclose "" "," item.lines ++ itemLines rest

def fieldLines : List (String × Outline) → List String
  | [] => []
  | (name, value) :: rest => enclose (name ++ ": ") "," value.lines ++ fieldLines rest

end

def text (s : String) : Outline := leaf (Text.quoted s)

def ofOption : Option Outline → Outline
  | none => leaf "None"
  | some o => tuple "Some" [o]

end Outline

end PatternAction

namespace PatternAction

-- The lines of a text whose unfinished first line has the characters `line`, last first. A carriage
-- return before the end of a line is dropped, and nothing follows a final end of line.
def linesAfter (line : List Char) : List Char → List (List Char)
  | [] => if line.isEmpty then [] else [line.reverse]
  | c :: cs =>
    if c = '\n' then
      (if line.head? = some '\r' then line.tail else line).reverse :: linesAfter [] cs
    else linesAfter (c :: line) cs

def recordsOf (text : String) : List String :=
  (linesAfter [] text.toList).map String.ofList

def readRecords? (bytes : ByteArray) : Option (List String) :=
  (String.fromUTF8? bytes).map recordsOf

end PatternAction

import PatternAction.Text.CodeTable

namespace PatternAction.Text

inductive Category
  | uppercaseLetter
  | lowercaseLetter
  | titlecaseLetter
  | modifierLetter
  | otherLetter
  | nonspacingMark
  | spacingMark
  | enclosingMark
  | decimalNumber
  | letterNumber
  | otherNumber
  | connectorPunctuation
  | dashPunctuation
  | openPunctuation
  | closePunctuation
  | initialPunctuation
  | finalPunctuation
  | otherPunctuation
  | mathSymbol
  | currencySymbol
  | modifierSymbol
  | otherSymbol
  | spaceSeparator
  | lineSeparator
  | paragraphSeparator
  | control
  | format
  | surrogate
  | privateUse
  | unassigned
deriving DecidableEq

namespace Category

def all : Array Category :=
  #[.uppercaseLetter, .lowercaseLetter, .titlecaseLetter, .modifierLetter, .otherLetter,
   .nonspacingMark, .spacingMark, .enclosingMark, .decimalNumber, .letterNumber,
   .otherNumber, .connectorPunctuation, .dashPunctuation, .openPunctuation, .closePunctuation,
   .initialPunctuation, .finalPunctuation, .otherPunctuation, .mathSymbol, .currencySymbol,
   .modifierSymbol, .otherSymbol, .spaceSeparator, .lineSeparator, .paragraphSeparator,
   .control, .format, .surrogate, .privateUse, .unassigned]

def abbreviation : Category → String
  | .uppercaseLetter => "Lu"
  | .lowercaseLetter => "Ll"
  | .titlecaseLetter => "Lt"
  | .modifierLetter => "Lm"
  | .otherLetter => "Lo"
  | .nonspacingMark => "Mn"
  | .spacingMark => "Mc"
  | .enclosingMark => "Me"
  | .decimalNumber => "Nd"
  | .letterNumber => "Nl"
  | .otherNumber => "No"
  | .connectorPunctuation => "Pc"
  | .dashPunctuation => "Pd"
  | .openPunctuation => "Ps"
  | .closePunctuation => "Pe"
  | .initialPunctuation => "Pi"
  | .finalPunctuation => "Pf"
  | .otherPunctuation => "Po"
  | .mathSymbol => "Sm"
  | .currencySymbol => "Sc"
  | .modifierSymbol => "Sk"
  | .otherSymbol => "So"
  | .spaceSeparator => "Zs"
  | .lineSeparator => "Zl"
  | .paragraphSeparator => "Zp"
  | .control => "Cc"
  | .format => "Cf"
  | .surrogate => "Cs"
  | .privateUse => "Co"
  | .unassigned => "Cn"

def fullName : Category → String
  | .uppercaseLetter => "Uppercase_Letter"
  | .lowercaseLetter => "Lowercase_Letter"
  | .titlecaseLetter => "Titlecase_Letter"
  | .modifierLetter => "Modifier_Letter"
  | .otherLetter => "Other_Letter"
  | .nonspacingMark => "Nonspacing_Mark"
  | .spacingMark => "Spacing_Mark"
  | .enclosingMark => "Enclosing_Mark"
  | .decimalNumber => "Decimal_Number"
  | .letterNumber => "Letter_Number"
  | .otherNumber => "Other_Number"
  | .connectorPunctuation => "Connector_Punctuation"
  | .dashPunctuation => "Dash_Punctuation"
  | .openPunctuation => "Open_Punctuation"
  | .closePunctuation => "Close_Punctuation"
  | .initialPunctuation => "Initial_Punctuation"
  | .finalPunctuation => "Final_Punctuation"
  | .otherPunctuation => "Other_Punctuation"
  | .mathSymbol => "Math_Symbol"
  | .currencySymbol => "Currency_Symbol"
  | .modifierSymbol => "Modifier_Symbol"
  | .otherSymbol => "Other_Symbol"
  | .spaceSeparator => "Space_Separator"
  | .lineSeparator => "Line_Separator"
  | .paragraphSeparator => "Paragraph_Separator"
  | .control => "Control"
  | .format => "Format"
  | .surrogate => "Surrogate"
  | .privateUse => "Private_Use"
  | .unassigned => "Unassigned"

-- Runs of characters of one category, each run as the category's position in `all` and the run's
-- length.
def runs : Array Nat := numbers
  "25 32 22 1 17 3 19 1 17 3 13 1 14 1 17 1 18 1 17 1 12 1 17 2 8 10 17 2 18 3 17 2 0 26 13 1
   17 1 14 1 20 1 11 1 20 1 1 26 13 1 18 1 14 1 18 1 25 33 22 1 17 1 19 4 21 1 17 1 20 1 21 1
   4 1 15 1 18 1 26 1 21 1 20 1 21 1 18 1 10 2 20 1 1 1 17 2 20 1 10 1 4 1 16 1 10 3 17 1 0 23
   18 1 0 7 1 24 18 1 1 8 0 1 1 1 0 1 1 1 0 1 1 1 0 1 1 1 0 1 1 1 0 1 1 1 0 1 1 1 0 1 1 1 0 1
   1 1 0 1 1 1 0 1 1 1 0 1 1 1 0 1 1 1 0 1 1 1 0 1 1 1 0 1 1 1 0 1 1 1 0 1 1 1 0 1 1 1 0 1 1 1
   0 1 1 1 0 1 1 1 0 1 1 1 0 1 1 1 0 1 1 1 0 1 1 1 0 1 1 1 0 1 1 2 0 1 1 1 0 1 1 1 0 1 1 1 0 1
   1 1 0 1 1 1 0 1 1 1 0 1 1 1 0 1 1 2 0 1 1 1 0 1 1 1 0 1 1 1 0 1 1 1 0 1 1 1 0 1 1 1 0 1 1 1
   0 1 1 1 0 1 1 1 0 1 1 1 0 1 1 1 0 1 1 1 0 1 1 1 0 1 1 1 0 1 1 1 0 1 1 1 0 1 1 1 0 1 1 1 0 1
   1 1 0 1 1 1 0 1 1 1 0 1 1 1 0 1 1 1 0 2 1 1 0 1 1 1 0 1 1 3 0 2 1 1 0 1 1 1 0 2 1 1 0 3 1 2
   0 4 1 1 0 2 1 1 0 3 1 3 0 2 1 1 0 2 1 1 0 1 1 1 0 1 1 1 0 2 1 1 0 1 1 2 0 1 1 1 0 2 1 1 0 3
   1 1 0 1 1 1 0 2 1 2 4 1 0 1 1 3 4 4 0 1 2 1 1 1 0 1 2 1 1 1 0 1 2 1 1 1 0 1 1 1 0 1 1 1 0 1
   1 1 0 1 1 1 0 1 1 1 0 1 1 1 0 1 1 1 0 1 1 2 0 1 1 1 0 1 1 1 0 1 1 1 0 1 1 1 0 1 1 1 0 1 1 1
   0 1 1 1 0 1 1 1 0 1 1 2 0 1 2 1 1 1 0 1 1 1 0 3 1 1 0 1 1 1 0 1 1 1 0 1 1 1 0 1 1 1 0 1 1 1
   0 1 1 1 0 1 1 1 0 1 1 1 0 1 1 1 0 1 1 1 0 1 1 1 0 1 1 1 0 1 1 1 0 1 1 1 0 1 1 1 0 1 1 1 0 1
   1 1 0 1 1 1 0 1 1 1 0 1 1 1 0 1 1 1 0 1 1 1 0 1 1 1 0 1 1 1 0 1 1 1 0 1 1 1 0 1 1 1 0 1 1 1
   0 1 1 7 0 2 1 1 0 2 1 2 0 1 1 1 0 4 1 1 0 1 1 1 0 1 1 1 0 1 1 1 0 1 1 69 4 2 1 26 3 18 20 4
   3 12 20 14 3 5 20 7 3 1 20 1 3 1 20 17 5 112 0 1 1 1 0 1 1 1 3 1 20 1 0 1 1 1 29 2 3 1 1 3
   17 1 0 1 29 4 20 2 0 1 17 1 0 3 29 1 0 1 29 1 0 2 1 1 0 17 29 1 0 9 1 35 0 1 1 2 0 3 1 3 0
   1 1 1 0 1 1 1 0 1 1 1 0 1 1 1 0 1 1 1 0 1 1 1 0 1 1 1 0 1 1 1 0 1 1 1 0 1 1 1 0 1 1 1 0 1 1
   5 0 1 1 1 18 1 0 1 1 1 0 2 1 2 0 51 1 48 0 1 1 1 0 1 1 1 0 1 1 1 0 1 1 1 0 1 1 1 0 1 1 1 0
   1 1 1 0 1 1 1 0 1 1 1 0 1 1 1 0 1 1 1 0 1 1 1 0 1 1 1 0 1 1 1 0 1 1 1 0 1 1 1 0 1 1 1 21 1
   5 5 7 2 0 1 1 1 0 1 1 1 0 1 1 1 0 1 1 1 0 1 1 1 0 1 1 1 0 1 1 1 0 1 1 1 0 1 1 1 0 1 1 1 0 1
   1 1 0 1 1 1 0 1 1 1 0 1 1 1 0 1 1 1 0 1 1 1 0 1 1 1 0 1 1 1 0 1 1 1 0 1 1 1 0 1 1 1 0 1 1 1
   0 1 1 1 0 1 1 1 0 1 1 1 0 1 1 1 0 1 1 1 0 2 1 1 0 1 1 1 0 1 1 1 0 1 1 1 0 1 1 1 0 1 1 1 0 1
   1 2 0 1 1 1 0 1 1 1 0 1 1 1 0 1 1 1 0 1 1 1 0 1 1 1 0 1 1 1 0 1 1 1 0 1 1 1 0 1 1 1 0 1 1 1
   0 1 1 1 0 1 1 1 0 1 1 1 0 1 1 1 0 1 1 1 0 1 1 1 0 1 1 1 0 1 1 1 0 1 1 1 0 1 1 1 0 1 1 1 0 1
   1 1 0 1 1 1 0 1 1 1 0 1 1 1 0 1 1 1 0 1 1 1 0 1 1 1 0 1 1 1 0 1 1 1 0 1 1 1 0 1 1 1 0 1 1 1
   0 1 1 1 0 1 1 1 0 1 1 1 0 1 1 1 0 1 1 1 0 1 1 1 0 1 1 1 0 1 1 1 0 1 1 1 0 1 1 1 0 1 1 1 0 1
   1 1 0 1 1 1 0 1 1 1 29 1 0 38 29 2 3 1 17 6 1 41 17 1 12 1 29 2 21 2 19 1 29 1 5 45 12 1 5
   1 17 1 5 2 17 1 5 2 17 1 5 1 29 8 4 27 29 4 4 4 17 2 29 11 26 6 18 3 17 2 19 1 17 2 21 2 5
   11 17 1 26 1 17 3 4 32 3 1 4 10 5 21 8 10 17 4 4 2 5 1 4 99 17 1 4 1 5 7 26 1 21 1 5 6 3 2
   5 2 21 1 5 4 4 2 8 10 4 3 21 2 4 1 17 14 29 1 26 1 4 1 5 1 4 30 5 27 29 2 4 89 5 11 4 1 29
   14 8 10 4 33 5 9 3 2 21 1 17 3 3 1 29 2 5 1 19 2 4 22 5 4 3 1 5 9 3 1 5 3 3 1 5 5 29 2 17
   15 29 1 4 25 5 3 29 2 17 1 29 1 4 11 29 5 4 24 20 1 4 7 26 2 29 5 5 9 4 41 3 1 5 24 26 1 5
   32 6 1 4 54 5 1 6 1 5 1 4 1 6 3 5 8 6 4 5 1 6 2 4 1 5 7 4 10 5 2 17 2 8 10 17 1 3 1 4 15 5
   1 6 2 29 1 4 8 29 2 4 2 29 2 4 22 29 1 4 7 29 1 4 1 29 3 4 4 29 2 5 1 4 1 6 3 5 4 29 2 6 2
   29 2 6 2 5 1 4 1 29 8 6 1 29 4 4 2 29 1 4 3 5 2 29 2 8 10 4 2 19 2 10 6 21 1 19 1 4 1 17 1
   5 1 29 2 5 2 6 1 29 1 4 6 29 4 4 2 29 2 4 22 29 1 4 7 29 1 4 2 29 1 4 2 29 1 4 2 29 2 5 1
   29 1 6 3 5 2 29 4 5 2 29 2 5 3 29 3 5 1 29 7 4 4 29 1 4 1 29 7 8 10 5 2 4 3 5 1 17 1 29 10
   5 2 6 1 29 1 4 9 29 1 4 3 29 1 4 22 29 1 4 7 29 1 4 2 29 1 4 5 29 2 5 1 4 1 6 3 5 5 29 1 5
   2 6 1 29 1 6 2 5 1 29 2 4 1 29 15 4 2 5 2 29 2 8 10 17 1 19 1 29 7 4 1 5 6 29 1 5 1 6 2 29
   1 4 8 29 2 4 2 29 2 4 22 29 1 4 7 29 1 4 2 29 1 4 5 29 2 5 1 4 1 6 1 5 1 6 1 5 4 29 2 6 2
   29 2 6 2 5 1 29 7 5 2 6 1 29 4 4 2 29 1 4 3 5 2 29 2 8 10 21 1 4 1 10 6 29 10 5 1 4 1 29 1
   4 6 29 3 4 3 29 1 4 4 29 3 4 2 29 1 4 1 29 1 4 2 29 3 4 2 29 3 4 3 29 3 4 12 29 4 6 2 5 1 6
   2 29 3 6 3 29 1 6 3 5 1 29 2 4 1 29 6 6 1 29 14 8 10 10 3 21 6 19 1 21 1 29 5 5 1 6 3 5 1 4
   8 29 1 4 3 29 1 4 23 29 1 4 16 29 2 5 1 4 1 5 3 6 4 29 1 5 3 29 1 5 4 29 7 5 2 29 1 4 3 29
   1 4 2 29 2 4 2 5 2 29 2 8 10 29 7 17 1 10 7 21 1 4 1 5 1 6 2 17 1 4 8 29 1 4 3 29 1 4 23 29
   1 4 10 29 1 4 5 29 2 5 1 4 1 6 1 5 1 6 5 29 1 5 1 6 2 29 1 6 2 5 2 29 7 6 2 29 5 4 3 29 1 4
   2 5 2 29 2 8 10 29 1 4 2 6 1 29 12 5 2 6 2 4 9 29 1 4 3 29 1 4 41 5 2 4 1 6 3 5 4 29 1 6 3
   29 1 6 3 5 1 4 1 21 1 29 4 4 3 6 1 10 7 4 3 5 2 29 2 8 10 10 9 21 1 4 6 29 1 5 1 6 2 29 1 4
   18 29 3 4 24 29 1 4 9 29 1 4 1 29 2 4 7 29 3 5 1 29 4 6 3 5 3 29 1 5 1 29 1 6 8 29 6 8 10
   29 2 6 2 17 1 29 12 4 48 5 1 4 2 5 7 29 4 19 1 4 6 3 1 5 8 17 1 8 10 17 2 29 37 4 2 29 1 4
   1 29 1 4 5 29 1 4 24 29 1 4 1 29 1 4 10 5 1 4 2 5 9 4 1 29 2 4 5 29 1 3 1 29 1 5 7 29 1 8
   10 29 2 4 4 29 32 4 1 21 3 17 15 21 1 17 1 21 3 5 2 21 6 8 10 10 10 21 1 5 1 21 1 5 1 21 1
   5 1 13 1 14 1 13 1 14 1 6 2 4 8 29 1 4 36 29 4 5 14 6 1 5 5 17 1 5 2 4 5 5 11 29 1 5 36 29
   1 21 8 5 1 21 6 29 1 21 2 17 5 21 4 17 2 29 37 4 43 6 2 5 4 6 1 5 6 6 1 5 2 6 2 5 2 4 1 8
   10 17 6 4 6 6 2 5 2 4 4 5 3 4 1 6 3 4 2 6 7 4 3 5 4 4 13 5 1 6 2 5 2 6 6 5 1 4 1 6 1 8 10 6
   3 5 1 21 2 0 38 29 1 0 1 29 5 0 1 29 2 1 43 17 1 3 1 1 3 4 329 29 1 4 4 29 2 4 7 29 1 4 1
   29 1 4 4 29 2 4 41 29 1 4 4 29 2 4 33 29 1 4 4 29 2 4 7 29 1 4 1 29 1 4 4 29 2 4 15 29 1 4
   57 29 1 4 4 29 2 4 67 29 2 5 3 17 9 10 20 29 3 4 16 21 10 29 6 0 86 29 2 1 6 29 2 12 1 4
   620 21 1 17 1 4 17 22 1 4 26 13 1 14 1 29 3 4 75 17 3 9 3 4 8 29 7 4 18 5 3 6 1 29 9 4 19 5
   2 6 1 17 2 29 9 4 18 5 2 29 12 4 13 29 1 4 3 29 1 5 2 29 12 4 52 5 2 6 1 5 7 6 8 5 1 6 2 5
   11 17 3 3 1 17 3 19 1 4 1 5 1 29 2 8 10 29 6 10 10 29 6 17 6 12 1 17 4 5 3 26 1 5 1 8 10 29
   6 4 35 3 1 4 53 29 7 4 5 5 2 4 34 5 1 4 1 29 5 4 70 29 10 4 31 29 1 5 3 6 4 5 2 6 3 29 4 6
   2 5 1 6 6 5 3 29 4 21 1 29 3 17 2 8 10 4 30 29 2 4 5 29 11 4 44 29 4 4 26 29 6 8 10 10 1 29
   3 21 34 4 23 5 2 6 2 5 1 29 2 17 2 4 53 6 1 5 1 6 1 5 7 29 1 5 1 6 1 5 1 6 2 5 8 6 6 5 10
   29 2 5 1 8 10 29 6 8 10 29 6 17 7 3 1 17 6 29 2 5 14 7 1 5 31 29 2 5 12 29 20 5 4 6 1 4 47
   5 1 6 1 5 5 6 1 5 1 6 5 5 1 6 2 4 8 29 1 17 2 8 10 17 7 21 10 5 9 21 9 17 3 5 2 6 1 4 30 6
   1 5 4 6 2 5 2 6 1 5 3 4 2 8 10 4 44 5 1 6 1 5 2 6 3 5 1 6 1 5 3 6 2 29 8 17 4 4 36 6 8 5 8
   6 2 5 2 29 3 17 5 8 10 29 3 4 3 8 10 4 30 3 6 17 2 1 9 0 1 1 1 29 5 0 43 29 2 0 3 17 8 29 8
   5 3 17 1 5 13 6 1 5 7 4 4 5 1 4 6 5 1 4 2 6 1 5 2 4 1 29 5 1 44 3 63 1 13 3 1 1 34 3 37 5
   64 0 1 1 1 0 1 1 1 0 1 1 1 0 1 1 1 0 1 1 1 0 1 1 1 0 1 1 1 0 1 1 1 0 1 1 1 0 1 1 1 0 1 1 1
   0 1 1 1 0 1 1 1 0 1 1 1 0 1 1 1 0 1 1 1 0 1 1 1 0 1 1 1 0 1 1 1 0 1 1 1 0 1 1 1 0 1 1 1 0 1
   1 1 0 1 1 1 0 1 1 1 0 1 1 1 0 1 1 1 0 1 1 1 0 1 1 1 0 1 1 1 0 1 1 1 0 1 1 1 0 1 1 1 0 1 1 1
   0 1 1 1 0 1 1 1 0 1 1 1 0 1 1 1 0 1 1 1 0 1 1 1 0 1 1 1 0 1 1 1 0 1 1 1 0 1 1 1 0 1 1 1 0 1
   1 1 0 1 1 1 0 1 1 1 0 1 1 1 0 1 1 1 0 1 1 1 0 1 1 1 0 1 1 1 0 1 1 1 0 1 1 1 0 1 1 1 0 1 1 1
   0 1 1 1 0 1 1 1 0 1 1 1 0 1 1 1 0 1 1 1 0 1 1 1 0 1 1 1 0 1 1 1 0 1 1 1 0 1 1 1 0 1 1 1 0 1
   1 1 0 1 1 1 0 1 1 1 0 1 1 1 0 1 1 1 0 1 1 1 0 1 1 9 0 1 1 1 0 1 1 1 0 1 1 1 0 1 1 1 0 1 1 1
   0 1 1 1 0 1 1 1 0 1 1 1 0 1 1 1 0 1 1 1 0 1 1 1 0 1 1 1 0 1 1 1 0 1 1 1 0 1 1 1 0 1 1 1 0 1
   1 1 0 1 1 1 0 1 1 1 0 1 1 1 0 1 1 1 0 1 1 1 0 1 1 1 0 1 1 1 0 1 1 1 0 1 1 1 0 1 1 1 0 1 1 1
   0 1 1 1 0 1 1 1 0 1 1 1 0 1 1 1 0 1 1 1 0 1 1 1 0 1 1 1 0 1 1 1 0 1 1 1 0 1 1 1 0 1 1 1 0 1
   1 1 0 1 1 1 0 1 1 1 0 1 1 1 0 1 1 1 0 1 1 1 0 1 1 1 0 1 1 1 0 1 1 1 0 1 1 9 0 8 1 6 29 2 0
   6 29 2 1 8 0 8 1 8 0 8 1 6 29 2 0 6 29 2 1 8 29 1 0 1 29 1 0 1 29 1 0 1 29 1 0 1 1 8 0 8 1
   14 29 2 1 8 2 8 1 8 2 8 1 8 2 8 1 5 29 1 1 2 0 4 2 1 20 1 1 1 20 3 1 3 29 1 1 2 0 4 2 1 20
   3 1 4 29 2 1 2 0 4 29 1 20 3 1 8 0 5 20 3 29 2 1 3 29 1 1 2 0 4 2 1 20 2 29 1 22 11 26 5 12
   6 17 2 15 1 16 1 13 1 15 2 16 1 13 1 15 1 17 8 23 1 24 1 26 5 22 1 17 9 15 1 16 1 17 4 11 2
   17 3 18 1 13 1 14 1 17 11 18 1 17 1 11 1 17 10 22 1 26 5 29 1 26 10 10 1 3 1 29 2 10 6 18 3
   13 1 14 1 3 1 10 10 18 3 13 1 14 1 29 1 3 13 29 3 19 34 29 14 5 13 7 4 5 1 7 3 5 12 29 15
   21 2 0 1 21 4 0 1 21 2 1 1 0 3 1 2 0 3 1 1 21 1 0 1 21 2 18 1 0 5 21 6 0 1 21 1 0 1 21 1 0
   1 21 1 0 4 21 1 1 1 0 4 1 1 4 4 1 1 21 2 1 2 0 2 18 5 0 1 1 4 21 1 18 1 21 2 1 1 21 1 10 16
   9 35 0 1 1 1 9 4 10 1 21 2 29 4 18 5 21 5 18 2 21 4 18 1 21 2 18 1 21 2 18 1 21 7 18 1 21
   31 18 2 21 2 18 1 21 1 18 1 21 31 18 268 21 8 13 1 14 1 13 1 14 1 21 20 18 2 21 7 13 1 14 1
   21 81 18 1 21 30 18 25 21 40 18 6 21 72 29 22 21 11 29 21 10 60 21 78 10 22 21 183 18 1 21
   9 18 1 21 54 18 8 21 111 18 1 21 248 13 1 14 1 13 1 14 1 13 1 14 1 13 1 14 1 13 1 14 1 13 1
   14 1 13 1 14 1 10 30 21 44 18 5 13 1 14 1 18 31 13 1 14 1 13 1 14 1 13 1 14 1 13 1 14 1 13
   1 14 1 18 16 21 256 18 131 13 1 14 1 13 1 14 1 13 1 14 1 13 1 14 1 13 1 14 1 13 1 14 1 13 1
   14 1 13 1 14 1 13 1 14 1 13 1 14 1 13 1 14 1 18 63 13 1 14 1 13 1 14 1 18 32 13 1 14 1 18
   258 21 48 18 21 21 2 18 6 21 39 29 2 21 138 0 48 1 48 0 1 1 1 0 3 1 2 0 1 1 1 0 1 1 1 0 1 1
   1 0 4 1 1 0 1 1 2 0 1 1 6 3 2 0 3 1 1 0 1 1 1 0 1 1 1 0 1 1 1 0 1 1 1 0 1 1 1 0 1 1 1 0 1 1
   1 0 1 1 1 0 1 1 1 0 1 1 1 0 1 1 1 0 1 1 1 0 1 1 1 0 1 1 1 0 1 1 1 0 1 1 1 0 1 1 1 0 1 1 1 0
   1 1 1 0 1 1 1 0 1 1 1 0 1 1 1 0 1 1 1 0 1 1 1 0 1 1 1 0 1 1 1 0 1 1 1 0 1 1 1 0 1 1 1 0 1 1
   1 0 1 1 1 0 1 1 1 0 1 1 1 0 1 1 1 0 1 1 1 0 1 1 1 0 1 1 1 0 1 1 1 0 1 1 1 0 1 1 1 0 1 1 1 0
   1 1 1 0 1 1 1 0 1 1 1 0 1 1 1 0 1 1 1 0 1 1 1 0 1 1 1 0 1 1 2 21 6 0 1 1 1 0 1 1 1 5 3 0 1
   1 1 29 5 17 4 10 1 17 2 1 38 29 1 1 1 29 5 1 1 29 2 4 56 29 7 3 1 17 1 29 14 5 1 4 23 29 9
   4 7 29 1 4 7 29 1 4 7 29 1 4 7 29 1 4 7 29 1 4 7 29 1 4 7 29 1 4 7 29 1 5 32 17 2 15 1 16 1
   15 1 16 1 17 3 15 1 16 1 17 1 15 1 16 1 17 9 12 1 17 2 12 1 17 1 15 1 16 1 17 2 15 1 16 1
   13 1 14 1 13 1 14 1 13 1 14 1 13 1 14 1 17 5 3 1 17 10 12 2 17 4 12 1 17 1 13 1 17 13 21 2
   17 3 13 1 14 1 13 1 14 1 13 1 14 1 13 1 14 1 12 1 29 34 21 26 29 1 21 89 29 12 21 214 29 26
   21 16 22 1 17 3 21 1 3 1 4 1 9 1 13 1 14 1 13 1 14 1 13 1 14 1 13 1 14 1 13 1 14 1 21 2 13
   1 14 1 13 1 14 1 13 1 14 1 13 1 14 1 12 1 13 1 14 2 21 1 9 9 5 4 6 2 12 1 3 5 21 2 9 3 3 1
   4 1 17 1 21 2 29 1 4 86 29 2 5 2 20 2 3 2 4 1 12 1 4 90 17 1 3 3 4 1 29 5 4 43 29 1 4 94 29
   1 21 2 10 4 21 10 4 32 21 38 29 9 21 1 4 16 21 31 29 1 10 10 21 30 10 8 21 1 10 15 21 32 10
   10 21 39 10 15 21 320 4 6592 21 64 4 21013 3 1 4 1143 29 3 21 55 29 9 4 40 3 6 17 2 4 268 3
   1 17 3 4 16 8 10 4 2 29 20 0 1 1 1 0 1 1 1 0 1 1 1 0 1 1 1 0 1 1 1 0 1 1 1 0 1 1 1 0 1 1 1
   0 1 1 1 0 1 1 1 0 1 1 1 0 1 1 1 0 1 1 1 0 1 1 1 0 1 1 1 0 1 1 1 0 1 1 1 0 1 1 1 0 1 1 1 0 1
   1 1 0 1 1 1 0 1 1 1 0 1 1 1 4 1 5 1 7 3 17 1 5 10 17 1 3 1 0 1 1 1 0 1 1 1 0 1 1 1 0 1 1 1
   0 1 1 1 0 1 1 1 0 1 1 1 0 1 1 1 0 1 1 1 0 1 1 1 0 1 1 1 0 1 1 1 0 1 1 1 0 1 1 1 3 2 5 2 4
   70 9 10 5 2 17 6 29 8 20 23 3 9 20 2 0 1 1 1 0 1 1 1 0 1 1 1 0 1 1 1 0 1 1 1 0 1 1 1 0 1 1
   3 0 1 1 1 0 1 1 1 0 1 1 1 0 1 1 1 0 1 1 1 0 1 1 1 0 1 1 1 0 1 1 1 0 1 1 1 0 1 1 1 0 1 1 1 0
   1 1 1 0 1 1 1 0 1 1 1 0 1 1 1 0 1 1 1 0 1 1 1 0 1 1 1 0 1 1 1 0 1 1 1 0 1 1 1 0 1 1 1 0 1 1
   1 0 1 1 1 0 1 1 1 0 1 1 1 0 1 1 1 0 1 1 1 0 1 1 1 0 1 1 1 0 1 1 1 3 1 1 8 0 1 1 1 0 1 1 1 0
   2 1 1 0 1 1 1 0 1 1 1 0 1 1 1 0 1 1 1 3 1 20 2 0 1 1 1 0 1 1 1 4 1 0 1 1 1 0 1 1 3 0 1 1 1
   0 1 1 1 0 1 1 1 0 1 1 1 0 1 1 1 0 1 1 1 0 1 1 1 0 1 1 1 0 1 1 1 0 1 1 1 0 5 1 1 0 5 1 1 0 1
   1 1 0 1 1 1 0 1 1 1 0 1 1 1 0 1 1 1 0 1 1 1 0 1 1 1 0 4 1 1 0 1 1 1 0 2 1 1 0 1 1 1 0 1 1 1
   0 1 1 1 0 1 1 1 0 1 1 1 0 1 1 1 0 1 1 1 0 1 29 20 3 4 0 1 1 1 4 1 3 2 1 1 4 7 5 1 4 3 5 1 4
   4 5 1 4 23 6 2 5 2 6 1 21 4 5 1 29 3 10 6 21 2 19 1 21 1 29 6 4 52 17 4 29 8 6 2 4 50 6 16
   5 2 29 8 17 2 8 10 29 6 5 18 4 6 17 3 4 1 17 1 4 2 5 1 8 10 4 28 5 8 17 2 4 23 5 11 6 2 29
   11 17 1 4 29 29 3 5 3 6 1 4 47 5 1 6 2 5 4 6 2 5 2 6 3 17 13 29 1 3 1 8 10 29 4 17 2 4 5 5
   1 3 1 4 9 8 10 4 5 29 1 4 41 5 6 6 2 5 2 6 2 5 2 29 9 4 3 5 1 4 8 5 1 6 1 29 2 8 10 29 2 17
   4 4 16 3 1 4 6 21 3 4 1 6 1 5 1 6 1 4 50 5 1 4 1 5 3 4 2 5 2 4 5 5 2 4 1 5 1 4 1 29 24 4 2
   3 1 17 2 4 11 6 1 5 2 6 2 17 2 4 1 3 2 6 1 5 1 29 10 4 6 29 2 4 6 29 2 4 6 29 9 4 7 29 1 4
   7 29 1 1 43 20 1 3 4 1 9 3 1 20 2 29 4 1 80 4 35 6 2 5 1 6 2 5 1 6 2 17 1 6 1 5 1 29 2 8 10
   29 6 4 11172 29 12 4 23 29 4 4 49 29 4 27 2048 28 6400 4 366 29 2 4 106 29 38 1 7 29 12 1 5
   29 5 4 1 5 1 4 10 18 1 4 13 29 1 4 5 29 1 4 1 29 1 4 2 29 1 4 2 29 1 4 108 20 17 21 16 4
   363 14 1 13 1 21 16 4 64 21 2 4 54 21 8 29 32 4 12 19 1 21 3 5 16 17 7 13 1 14 1 17 1 29 6
   5 16 17 1 12 2 11 2 13 1 14 1 13 1 14 1 13 1 14 1 13 1 14 1 13 1 14 1 13 1 14 1 13 1 14 1
   13 1 14 1 17 2 13 1 14 1 17 4 11 3 17 3 29 1 17 4 12 1 13 1 14 1 13 1 14 1 13 1 14 1 17 3
   18 1 12 1 18 3 29 1 17 1 19 1 17 2 29 4 4 5 29 1 4 135 29 2 26 1 29 1 17 3 19 1 17 3 13 1
   14 1 17 1 18 1 17 1 12 1 17 2 8 10 17 2 18 3 17 2 0 26 13 1 17 1 14 1 20 1 11 1 20 1 1 26
   13 1 18 1 14 1 18 1 13 1 14 1 17 1 13 1 14 1 17 2 4 10 3 1 4 45 3 2 4 31 29 3 4 6 29 2 4 6
   29 2 4 6 29 2 4 3 29 3 19 2 18 1 20 1 21 1 19 2 29 1 21 1 18 4 21 2 29 10 26 3 21 2 29 2 4
   12 29 1 4 26 29 1 4 19 29 1 4 2 29 1 4 15 29 2 4 14 29 34 4 123 29 5 17 3 29 4 10 45 29 3
   21 9 9 53 10 4 21 17 10 2 21 3 29 1 21 13 29 3 21 1 29 47 21 45 5 1 29 130 4 29 29 3 4 49
   29 15 5 1 10 27 29 4 4 32 10 4 29 9 4 20 9 1 4 8 9 1 29 5 4 38 5 5 29 5 4 30 29 1 17 1 4 36
   29 4 4 8 17 1 9 5 29 42 0 40 1 40 4 78 29 2 8 10 29 6 0 36 29 4 1 36 29 4 4 40 29 8 4 52 29
   11 17 1 0 11 29 1 0 15 29 1 0 7 29 1 0 2 29 1 1 11 29 1 1 15 29 1 1 7 29 1 1 2 29 3 4 52 29
   12 4 311 29 9 4 22 29 10 4 8 29 24 3 6 29 1 3 42 29 1 3 9 29 69 4 6 29 2 4 1 29 1 4 44 29 1
   4 2 29 3 4 1 29 2 4 23 29 1 17 1 10 8 4 23 21 2 10 7 4 31 29 8 10 9 29 48 4 19 29 1 4 2 29
   5 10 5 4 22 10 6 29 3 17 1 4 26 29 5 17 1 4 26 29 38 4 56 29 4 10 2 4 2 10 16 29 2 10 46 4
   1 5 3 29 1 5 2 29 5 5 4 4 4 29 1 4 3 29 1 4 29 29 2 5 3 29 4 5 1 10 9 29 7 17 9 29 7 4 29
   10 2 17 1 4 29 10 3 29 32 4 8 21 1 4 28 5 2 29 4 10 5 17 7 29 9 4 54 29 3 17 7 4 22 29 2 10
   8 4 19 29 5 10 8 4 18 29 7 17 4 29 12 10 7 29 80 4 73 29 55 0 51 29 13 1 51 29 7 10 6 4 36
   5 4 29 8 8 10 29 6 8 10 4 4 3 1 4 1 0 22 29 3 5 5 12 1 3 1 1 22 29 8 18 2 29 208 10 31 29 1
   4 42 29 1 5 2 12 1 29 2 4 2 29 16 4 3 3 1 4 2 29 8 17 1 21 8 29 33 5 6 4 29 10 10 4 1 29 8
   4 22 5 11 10 4 17 5 29 22 4 18 5 4 17 4 29 38 4 21 10 7 29 20 4 23 29 9 6 1 5 1 6 1 4 53 5
   15 17 7 29 4 10 20 8 10 5 1 4 2 5 2 4 1 29 9 5 3 6 1 4 45 6 3 5 4 6 2 5 2 17 2 26 1 17 4 5
   1 29 10 26 1 29 2 4 25 29 7 8 10 29 6 5 3 4 36 5 5 6 1 5 8 29 1 8 10 17 4 4 1 6 2 4 1 29 8
   4 35 5 1 17 2 4 1 29 9 5 2 6 1 4 48 6 3 5 9 6 2 4 4 17 4 5 4 17 1 6 1 5 1 8 10 4 1 17 1 4 1
   17 3 29 1 10 20 29 11 4 18 29 1 4 25 6 3 5 3 6 2 5 1 6 1 5 2 17 6 5 1 4 2 5 1 29 62 4 7 29
   1 4 1 29 1 4 4 29 1 4 15 29 1 4 10 17 1 29 6 4 47 5 1 6 3 5 8 29 5 8 10 29 6 5 2 6 2 29 1 4
   8 29 2 4 2 29 2 4 22 29 1 4 7 29 1 4 2 29 1 4 5 29 1 5 2 4 1 6 2 5 1 6 4 29 2 6 2 29 2 6 3
   29 2 4 1 29 6 6 1 29 5 4 5 6 2 29 2 5 7 29 3 5 5 29 11 4 10 29 1 4 1 29 2 4 1 29 1 4 38 29
   1 4 1 6 3 5 6 29 1 6 1 29 2 6 1 29 1 6 4 29 1 6 2 5 1 6 1 5 1 4 1 5 1 4 1 17 2 29 1 17 2 29
   8 5 2 29 29 4 53 6 3 5 8 6 2 5 3 6 1 5 1 4 4 17 5 8 10 17 2 29 1 17 1 5 1 4 3 29 30 4 48 6
   3 5 6 6 1 5 1 6 4 5 2 6 1 5 2 4 2 17 1 4 1 29 8 8 10 29 166 4 47 6 3 5 4 29 2 6 4 5 2 6 1 5
   2 17 23 4 4 5 2 29 34 4 48 6 3 5 8 6 2 5 1 6 1 5 2 17 3 4 1 29 11 8 10 29 6 17 13 29 19 4
   43 5 1 6 1 5 1 6 2 5 6 6 1 5 1 4 1 17 1 29 6 8 10 29 6 8 20 29 28 4 27 29 2 5 1 6 1 5 1 6 2
   5 4 6 1 5 5 29 4 8 10 10 2 17 3 21 1 4 7 29 185 4 44 6 3 5 9 6 1 5 2 17 1 29 100 0 32 1 32
   8 10 10 9 29 12 4 8 29 2 4 1 29 2 4 8 29 1 4 2 29 1 4 24 6 6 29 1 6 2 29 2 5 2 6 1 5 1 4 1
   6 1 4 1 6 1 5 1 17 3 29 9 8 10 29 70 4 8 29 2 4 39 6 3 5 4 29 2 5 2 6 4 5 1 4 1 17 1 4 1 6
   1 29 27 4 1 5 10 4 40 5 6 6 1 4 1 5 4 17 8 5 1 29 8 4 1 5 6 6 2 5 3 4 46 5 13 6 1 5 2 17 3
   4 1 17 5 29 13 4 73 29 7 17 10 29 86 5 1 6 1 5 3 6 1 5 1 6 1 29 88 4 33 17 1 29 14 8 10 29
   6 4 9 29 1 4 37 6 1 5 7 29 1 5 6 6 1 5 1 4 1 17 5 29 10 8 10 10 19 29 3 17 2 4 30 29 2 5 22
   29 1 6 1 5 7 6 1 5 2 6 1 5 2 29 73 4 7 29 1 4 2 29 1 4 38 5 6 29 3 5 1 29 1 5 2 29 1 5 7 4
   1 5 1 29 8 8 10 29 6 4 6 29 1 4 2 29 1 4 32 6 5 29 1 5 2 29 1 6 2 5 1 6 1 5 1 4 1 29 7 8 10
   29 6 4 41 3 1 4 2 29 4 8 10 29 246 4 19 5 2 6 2 17 2 29 7 5 2 4 1 6 1 4 13 29 1 4 34 6 2 5
   5 29 3 6 2 5 1 6 1 5 1 17 13 8 10 5 1 29 85 4 1 29 15 10 21 21 8 19 4 21 17 29 13 17 1 4
   922 29 102 9 111 29 1 17 5 29 11 4 196 29 2636 4 97 17 2 29 13 4 1072 26 16 5 1 4 6 5 15 29
   10 4 3995 29 5 4 583 29 6841 4 30 5 12 6 3 5 3 8 10 29 1734 4 569 29 7 4 31 29 1 8 10 29 4
   17 2 4 79 29 1 8 10 29 6 4 30 29 2 5 5 17 1 29 10 4 48 5 7 17 5 21 4 3 4 17 1 21 1 29 10 8
   10 29 1 10 7 29 1 4 21 29 5 4 19 29 432 3 3 4 40 3 2 17 3 8 10 29 198 0 32 1 32 10 23 17 4
   29 5 0 25 29 2 1 25 29 44 4 75 29 4 5 1 4 1 6 55 29 7 5 4 3 13 29 64 3 2 17 1 3 1 5 1 29 11
   6 2 3 2 9 3 29 9 4 7382 29 41 4 32 29 97 4 115 29 8701 3 4 29 1 3 7 29 1 3 2 29 1 4 291 29
   15 4 1 29 29 4 3 29 2 4 1 29 14 4 4 29 8 4 396 29 2308 4 107 29 5 4 13 29 3 4 9 29 7 4 10
   29 2 21 1 5 2 17 1 26 4 29 3932 21 240 8 10 21 3 29 3 21 436 29 6 21 23 29 15 21 16 18 1 29
   15 5 46 29 2 5 23 29 9 21 116 29 60 21 246 29 10 21 39 29 2 21 60 6 2 5 3 21 3 6 6 26 8 5 8
   21 2 5 7 21 30 5 4 21 61 29 21 21 66 5 3 21 1 29 122 10 20 29 12 10 20 29 12 21 87 29 9 10
   25 29 135 0 26 1 26 0 26 1 7 29 1 1 18 0 26 1 26 0 1 29 1 0 2 29 2 0 1 29 2 0 2 29 2 0 4 29
   1 0 8 1 4 29 1 1 1 29 1 1 7 29 1 1 11 0 26 1 26 0 2 29 1 0 4 29 2 0 8 29 1 0 7 29 1 1 26 0
   2 29 1 0 4 29 1 0 5 29 1 0 1 29 3 0 7 29 1 1 26 0 26 1 26 0 26 1 26 0 26 1 26 0 26 1 26 0
   26 1 26 0 26 1 28 29 2 0 25 18 1 1 25 18 1 1 6 0 25 18 1 1 25 18 1 1 6 0 25 18 1 1 25 18 1
   1 6 0 25 18 1 1 25 18 1 1 6 0 25 18 1 1 25 18 1 1 6 0 1 1 1 29 2 8 50 21 512 5 55 21 4 5 50
   21 8 5 1 21 14 5 1 21 2 17 5 29 15 5 5 29 1 5 15 29 1104 1 10 4 1 1 20 29 6 1 6 29 213 5 7
   29 1 5 17 29 2 5 7 29 1 5 2 29 1 5 5 29 5 3 62 29 33 5 1 29 112 4 45 29 3 5 7 3 7 29 2 8 10
   29 4 4 1 21 1 29 320 4 30 5 1 29 17 4 44 5 4 8 10 29 5 19 1 29 464 4 27 3 1 5 4 8 10 29 214
   4 30 5 2 4 1 8 10 29 4 17 1 29 192 4 31 29 1 4 3 5 1 4 2 5 1 4 7 5 2 4 5 5 1 29 8 4 1 3 1
   29 224 4 7 29 1 4 4 29 1 4 2 29 1 4 15 29 1 4 197 29 2 10 9 5 7 29 41 0 34 1 34 5 7 3 1 29
   4 8 10 29 4 17 2 29 785 10 59 21 1 10 3 19 1 10 4 29 76 10 45 21 1 10 15 29 194 4 4 29 1 4
   27 29 1 4 2 29 1 4 1 29 2 4 1 29 1 4 10 29 1 4 4 29 1 4 1 29 1 4 1 29 6 4 1 29 4 4 1 29 1 4
   1 29 1 4 1 29 1 4 3 29 1 4 2 29 1 4 1 29 2 4 1 29 1 4 1 29 1 4 1 29 1 4 1 29 1 4 1 29 1 4 2
   29 1 4 1 29 2 4 4 29 1 4 7 29 1 4 4 29 1 4 4 29 1 4 1 29 1 4 10 29 1 4 17 29 5 4 3 29 1 4 5
   29 1 4 17 29 52 18 2 29 270 21 44 29 4 21 100 29 12 21 15 29 2 21 15 29 1 21 15 29 1 21 37
   29 10 10 13 21 161 29 56 21 29 29 13 21 44 29 4 21 9 29 7 21 2 29 14 21 6 29 154 21 251 20
   5 21 729 29 3 21 17 29 3 21 13 29 3 21 218 29 6 21 12 29 4 21 1 29 15 21 12 29 4 21 56 29 8
   21 10 29 6 21 40 29 8 21 30 29 2 21 12 29 4 21 2 29 14 18 9 29 39 21 344 29 8 21 14 29 2 21
   13 29 3 21 11 29 3 21 57 29 1 21 1 29 4 21 16 29 2 21 12 29 4 21 10 29 7 21 147 29 1 21 92
   8 10 21 1 29 1029 4 42720 29 32 4 4382 29 2 4 5774 29 2 4 7473 29 15 4 622 29 2466 4 542 29
   1506 4 4939 29 5 4 8490 29 707463 26 1 29 30 26 96 29 128 5 240 29 65040 28 65534 29 2 28
   65534 29 2"

-- The first code points of the runs, and the category of each run.
def table : Array Nat × Array Category :=
  go (runs.size / 2) 0 0 (#[], #[])
where
  go : Nat → Nat → Nat → Array Nat × Array Category → Array Nat × Array Category
    | 0, _, _, found => found
    | n + 1, i, start, (starts, categories) =>
      go n (i + 2) (start + runs.getD (i + 1) 0)
        (starts.push start, categories.push (all.getD (runs.getD i 0) .unassigned))

def ofChar (c : Char) : Category :=
  table.2.getD (rank table.1 c.toNat 0 table.1.size - 1) .unassigned

-- The letter that a category shares with its relatives: `L` for letters, `M` for marks, and so on.
def major (g : Category) : String := (g.abbreviation.take 1).toString

end Category

end PatternAction.Text

/-
Which texts can be the symbol of an operator and which the name of a function.
No character is allowed in both, so a name never runs into a symbol.
-/
import ReversePolish.Text.Letter
import ReversePolish.Text.Numeric

namespace ReversePolish

/-- The characters that make up operator symbols. -/
def operatorChars : List Char :=
  ['+', '-', '*', '/', '%', '^', '!', '#', '§', '$', '&', ';', ':', '~', '<', '>', '|', '=',
   '÷', '√', '∛', '⊥']

def isOperatorChar (c : Char) : Bool := operatorChars.contains c

/-- A name begins with a letter or an underscore. -/
def isNameStart (c : Char) : Bool := isLetter c || c == '_'

/-- It goes on with letters, numeric characters and underscores. -/
def isNameChar (c : Char) : Bool := isLetter c || isNumeric c || c == '_'

def isFunctionName (s : String) : Bool :=
  match s.toList with
  | [] => false
  | c :: rest => isNameStart c && rest.all isNameChar

end ReversePolish

/-
What is built in, listed for whoever wants to look it up.
-/
import ReversePolish.Operation.Builtin
import ReversePolish.Operation.Naming
import ReversePolish.Text.Sorted

namespace ReversePolish
namespace Catalogue

def functionNames : List String := sorted BuiltinFunction.names

/-- The characters of operator symbols in order, as one text. -/
def operatorSymbols : String :=
  String.join (sorted (operatorChars.map fun c => String.ofList [c]))

def constant? (name : String) : Option Float := builtinConstants.lookup name

end Catalogue
end ReversePolish

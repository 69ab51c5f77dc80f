/-
Expression trees, and the token sequence that lists a tree: the arguments of
an operation first, in order, and then the operation. `Tree.value` gives a
tree's meaning by recursion, without a stack.
-/
import ReversePolish.Fold

namespace ReversePolish

inductive Tree where
  | number (value : Float)
  | name (variableName : String)
  | node (op : Operation) (args : List Tree)

namespace Tree

mutual

/-- Does every operation have as many arguments as it takes? -/
def WellFormed : Tree → Prop
  | .number _ => True
  | .name _ => True
  | .node op args => args.length = op.arity ∧ AllWellFormed args

def AllWellFormed : List Tree → Prop
  | [] => True
  | t :: rest => t.WellFormed ∧ AllWellFormed rest

end

mutual

def postorder : Tree → List Token
  | .number x => [.number x]
  | .name n => [.name n]
  | .node op args => postorderAll args ++ [.operation op]

def postorderAll : List Tree → List Token
  | [] => []
  | t :: rest => t.postorder ++ postorderAll rest

end

mutual

/-- The meaning of the tree: each operation applied to the meanings of its arguments, which
are found from left to right. -/
def value {α : Type u} (I : Interpretation α) : Tree → Except EvalError α
  | .number x => .ok (I.number x)
  | .name n => I.name n
  | .node op args =>
    match valueAll I args with
    | .ok values => I.apply op values
    | .error e => .error e

def valueAll {α : Type u} (I : Interpretation α) : List Tree → Except EvalError (List α)
  | [] => .ok []
  | t :: rest =>
    match t.value I with
    | .ok v => match valueAll I rest with
      | .ok values => .ok (v :: values)
      | .error e => .error e
    | .error e => .error e

end

end Tree
end ReversePolish

/-
Kernels: what an operation computes. A kernel takes the arguments in order and
gives a value, or says why it cannot. Those below serve definitions of a
caller's own; they take any number of arguments unless they say otherwise.

A double comes to a kernel in one of two forms: on its own, or read out of a
cell of a buffer. No kernel below computes differently with the one than with
the other, but a caller's own may: plain division fails on a divisor of
nought, and division of cells gives an infinity.
-/

namespace ReversePolish

inductive Kind where
  | operator
  | function
  deriving DecidableEq, Repr

namespace Kind

def word : Kind → String
  | .operator => "operator"
  | .function => "function"

def capitalWord : Kind → String
  | .operator => "Operator"
  | .function => "Function"

/-- What such an operation is applied to. -/
def inputsWord : Kind → String
  | .operator => "operands"
  | .function => "arguments"

end Kind

/-- What a kernel that takes a set number of arguments says of itself to whoever gives it another
number. There are no more than two. -/
inductive Signature where
  /-- The number alone. -/
  | counted (expected : Nat)
  /-- A name and the names of the parameters. -/
  | named (name : String) (parameters : List String)
  /-- The name of a kernel that also takes a place for the result behind its arguments. -/
  | elementwise (name : String) (expected : Nat)
  deriving DecidableEq, Repr

namespace Signature

def counting (n : Nat) (one many : String) : String :=
  toString n ++ " " ++ (if n = 1 then one else many)

/-- What is said when a kernel is given a number of arguments that it does not take. -/
def complaint : Signature → Nat → String
  | .counted expected, found =>
    (if found < expected then "not enough" else "too many") ++ " arguments: expected " ++
      toString expected ++ ", got " ++ toString found
  | .named name parameters, found =>
    let missing := parameters.drop found
    if missing.isEmpty then
      name ++ "() takes " ++
        counting parameters.length "positional argument" "positional arguments" ++ " but " ++
        counting found "was" "were" ++ " given"
    else
      name ++ "() missing " ++
        counting missing.length "required positional argument: "
          "required positional arguments: " ++
        " and ".intercalate (missing.map fun a => "'" ++ a ++ "'")
  | .elementwise name expected, found =>
    if found = expected + 1 then "return arrays must be of ArrayType"
    else
      name ++ "() takes from " ++ toString expected ++ " to " ++ toString (expected + 1) ++
        " positional arguments but " ++ toString found ++ " were given"

end Signature

inductive ApplyError where
  /-- It was defined without a kernel. -/
  | unimplemented (kind : Kind) (name : String)
  /-- Its kernel gave up with a message. -/
  | raised (text : String)
  /-- Its kernel does not take so many arguments. -/
  | miscounted (signature : Signature) (found : Nat)
  /-- Its kernel looks for an argument that there is not. -/
  | noArgument
  /-- There is no operation. -/
  | nothing
  deriving DecidableEq, Repr

def ApplyError.message : ApplyError → String
  | .unimplemented kind name =>
    kind.capitalWord ++ " '" ++ name ++ "' has no implementation"
  | .raised text => text
  | .miscounted signature found => signature.complaint found
  | .noArgument => "tuple index out of range"
  | .nothing => "'NoneType' object has no attribute 'apply'"

/-- How a double comes to a kernel. -/
inductive Form where
  | plain
  | cell
  deriving DecidableEq, Repr

/-- What is computed from two numbers is plain only if both are. -/
def Form.join : Form → Form → Form
  | .plain, .plain => .plain
  | _, _ => .cell

/-- A double as a kernel is given it, and as it gives one. -/
structure Scalar where
  value : Float
  form : Form
  deriving Repr

def Scalar.combine (f : Float → Float → Float) (x y : Scalar) : Scalar :=
  ⟨f x.value y.value, x.form.join y.form⟩

/-- What is assumed of a caller's kernel is in the type: that it sees nothing but its arguments
and their forms, that it keeps nothing from one call to the next, and that it gives a double or
fails. -/
abbrev Kernel := List Scalar → Except ApplyError Scalar

namespace Kernel

/-- A kernel of exactly one argument, with results of one form. -/
def unary (signature : Signature) (form : Form) (f : Float → Float) : Kernel
  | [x] => .ok ⟨f x.value, form⟩
  | xs => .error (.miscounted signature xs.length)

def binary (signature : Signature) (form : Form) (f : Float → Float → Float) : Kernel
  | [x, y] => .ok ⟨f x.value y.value, form⟩
  | xs => .error (.miscounted signature xs.length)

def constant (value : Float) : Kernel := fun _ => .ok ⟨value, .plain⟩

def count : Kernel := fun xs => .ok ⟨xs.length.toFloat, .plain⟩

/-- The sum, from the left and from nought. -/
def sum : Kernel := fun xs => .ok (xs.foldl (.combine (· + ·)) ⟨0.0, .plain⟩)

/-- The sum of each argument times its position, the first position being one. -/
def weightedSum : Kernel := fun xs =>
  .ok ((xs.zipIdx 1).foldl
    (fun total (x, i) => .combine (fun total x => total + i.toFloat * x) total x) ⟨0.0, .plain⟩)

/-- The first argument less all the others, from the left. -/
def difference : Kernel
  | x :: xs => .ok (xs.foldl (.combine (· - ·)) x)
  | [] => .error .noArgument

/-- The first of the greatest arguments; an undefined one replaces none and is replaced by
none. -/
def greatest : Kernel
  | x :: xs => .ok (xs.foldl (fun best x => if x.value > best.value then x else best) x)
  | [] => .error .noArgument

def first : Kernel
  | x :: _ => .ok x
  | [] => .error .noArgument

def last : Kernel := fun xs =>
  match xs.getLast? with
  | some x => .ok x
  | none => .error .noArgument

/-- One if the first two arguments differ and nought if they are equal. -/
def differs : Kernel
  | x :: y :: _ => .ok ⟨if x.value != y.value then 1.0 else 0.0, .plain⟩
  | _ => .error .noArgument

def failing (text : String) : Kernel := fun _ => .error (.raised text)

end Kernel
end ReversePolish

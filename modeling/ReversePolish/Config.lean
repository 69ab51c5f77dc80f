/-
The settings of an expression: how many lengths of scratch buffers are pooled,
how many cells the operand stack has at first, and whether a check of the
expression looks at its variables unless told otherwise.
-/
import ReversePolish.Datum
import ReversePolish.OperandStack
import ReversePolish.ScratchPool

namespace ReversePolish

structure Config where
  scratchPoolSize : Nat := ScratchPool.defaultSize
  initialStackCapacity : Nat := OperandStack.defaultCapacity
  checkVariablesOnValidate : Bool := true
  capacity_pos : 0 < initialStackCapacity := by
    first | exact OperandStack.defaultCapacity_pos | decide
  deriving DecidableEq

/-- What is wrong with the settings that are given. -/
inductive ConfigError where
  | unknownSetting (name : String)
  | poolSizeNotWhole
  | poolSizeNegative
  | capacityNotWhole
  | capacityNotPositive
  | checkNotTruth
  deriving DecidableEq, Repr

def ConfigError.message : ConfigError → String
  | .unknownSetting name =>
    "EngineConfig.__init__() got an unexpected keyword argument '" ++ name ++ "'"
  | .poolSizeNotWhole => "scratch_pool_size must be an integer"
  | .poolSizeNegative => "scratch_pool_size must be a non-negative integer"
  | .capacityNotWhole => "initial_stack_capacity must be an integer"
  | .capacityNotPositive => "initial_stack_capacity must be a positive integer"
  | .checkNotTruth => "check_variables_on_validate must be a boolean"

namespace Config

def settingNames : List String :=
  ["scratch_pool_size", "initial_stack_capacity", "check_variables_on_validate"]

def poolSizeOf : Option Datum → Except ConfigError Nat
  | none => .ok ScratchPool.defaultSize
  | some (.whole n) => if 0 ≤ n then .ok n.toNat else .error .poolSizeNegative
  | some _ => .error .poolSizeNotWhole

def capacityOf : Option Datum → Except ConfigError { n : Nat // 0 < n }
  | none => .ok ⟨OperandStack.defaultCapacity, by decide⟩
  | some (.whole n) =>
    if h : 0 < n.toNat then .ok ⟨n.toNat, h⟩ else .error .capacityNotPositive
  | some _ => .error .capacityNotWhole

def checkOf : Option Datum → Except ConfigError Bool
  | none => .ok true
  | some (.truth b) => .ok b
  | some _ => .error .checkNotTruth

/-- The settings by name; those that are not given are the usual ones. Names are looked at
first, then the settings in their order. -/
def make (given : List (String × Datum)) : Except ConfigError Config :=
  match given.find? fun entry => !settingNames.contains entry.1 with
  | some (name, _) => .error (.unknownSetting name)
  | none => do
    let size ← poolSizeOf (given.lookup "scratch_pool_size")
    let capacity ← capacityOf (given.lookup "initial_stack_capacity")
    let check ← checkOf (given.lookup "check_variables_on_validate")
    .ok ⟨size, capacity.val, check, capacity.2⟩

def shown (c : Config) : String :=
  "EngineConfig(scratch_pool_size=" ++ toString c.scratchPoolSize ++
    ", initial_stack_capacity=" ++ toString c.initialStackCapacity ++
    ", check_variables_on_validate=" ++ Datum.truthWord c.checkVariablesOnValidate ++ ")"

end Config
end ReversePolish

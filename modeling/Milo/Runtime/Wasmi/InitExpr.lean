import Milo.Runtime.WasmiError
import Mathlib.Data.List.Forall2

-- Constant expressions as a module holds them: trees of operators instead of Wasm's stack code.
namespace Milo.Runtime.Wasmi

deriving instance DecidableEq, Repr for ValType
deriving instance DecidableEq, Repr for Mutability

-- A nullable reference, by the bits of the entity that it names.
inductive Ref where
  | val (bits : { bits : UInt64 // bits ≠ 0 })
  | null
deriving DecidableEq

-- The numbers without a sign, and those with a point by their bits.
inductive Val where
  | i32 (value : UInt32)
  | i64 (value : UInt64)
  | f32 (bits : UInt32)
  | f64 (bits : UInt64)
  | funcRef (value : Ref)
  | externRef (value : Ref)
deriving DecidableEq

def Val.ty : Val → ValType
  | .i32 _ => .i32
  | .i64 _ => .i64
  | .f32 _ => .f32
  | .f64 _ => .f64
  | .funcRef _ => .funcRef
  | .externRef _ => .externRef

abbrev UntypedVal : Type := UInt64

def Ref.toUntyped : Ref → UntypedVal
  | .val bits => bits
  | .null => 0

def Val.toUntyped : Val → UntypedVal
  | .i32 value => value.toUInt64
  | .i64 value => value
  | .f32 bits => bits.toUInt64
  | .f64 bits => bits
  | .funcRef value => value.toUntyped
  | .externRef value => value.toUntyped

structure EvalContext where
  getGlobal : UInt32 → Option Val
  getFunc : UInt32 → Option Ref

def EmptyEvalContext : EvalContext where
  getGlobal _ := none
  getFunc _ := none

-- An operator that computes is a closure over its operands.
inductive OpTree where
  | const (value : UntypedVal)
  | global (globalIndex : UInt32)
  | funcRef (functionIndex : UInt32)
  | expr (run : EvalContext → Option UntypedVal)

def OpTree.eval (ctx : EvalContext) : OpTree → Option UntypedVal
  | const value => some value
  | global globalIndex => (ctx.getGlobal globalIndex).map Val.toUntyped
  | funcRef functionIndex => (ctx.getFunc functionIndex).map Ref.toUntyped
  | expr run => run ctx

-- The stack of the translation, with its top beside the vector of the rest: the end of that
-- vector comes first here.
structure ConstExprStack where
  top : Option OpTree
  ops : List OpTree

namespace ConstExprStack

def empty : ConstExprStack := ⟨none, []⟩

-- It only looks at the vector.
def isEmpty (stack : ConstExprStack) : Bool := stack.ops.isEmpty

def push (stack : ConstExprStack) (op : OpTree) : ConstExprStack where
  top := some op
  ops := stack.top.toList ++ stack.ops

def pop (stack : ConstExprStack) : Option OpTree × ConstExprStack :=
  (stack.top, ⟨stack.ops.head?, stack.ops.tail⟩)

def pop2 (stack : ConstExprStack) : Option ((OpTree × OpTree) × ConstExprStack) :=
  match stack.pop with
  | (some rhs, stack) =>
      match stack.pop with
      | (some lhs, stack) => some ((lhs, rhs), stack)
      | (none, _) => none
  | (none, _) => none

end ConstExprStack

inductive HeapType where
  | func
  | externHeap
  | other
deriving DecidableEq, Repr

inductive Operator where
  | i32Const (value : UInt32)
  | i64Const (value : UInt64)
  | f32Const (bits : UInt32)
  | f64Const (bits : UInt64)
  | globalGet (globalIndex : UInt32)
  | refNull (hty : HeapType)
  | refFunc (functionIndex : UInt32)
  | i32Add
  | i32Sub
  | i32Mul
  | i64Add
  | i64Sub
  | i64Mul
  | endExpr
  | other
deriving DecidableEq, Repr

-- The operators that combine two operands, by what they compute of untyped values. The cases of
-- the operands' kinds are all alike.
def defExpr (run : UntypedVal → UntypedVal → UntypedVal) (lhs rhs : OpTree) : OpTree :=
  .expr fun ctx => do
    let lhs ← lhs.eval ctx
    let rhs ← rhs.eval ctx
    return run lhs rhs

def onI32 (run : UInt32 → UInt32 → UInt32) (lhs rhs : UntypedVal) : UntypedVal :=
  (run lhs.toUInt32 rhs.toUInt32).toUInt64

def exprOp (stack : ConstExprStack) (run : UntypedVal → UntypedVal → UntypedVal) :
    Except Fault (OpTree × ConstExprStack) :=
  match stack.pop2 with
  | some ((lhs, rhs), stack) => .ok (defExpr run lhs rhs, stack)
  | none => .error .panic

-- What an operator is translated to, and the stack below it.
def translate (stack : ConstExprStack) : Operator → Except Fault (OpTree × ConstExprStack)
  | .i32Const value => .ok (.const (Val.i32 value).toUntyped, stack)
  | .i64Const value => .ok (.const (Val.i64 value).toUntyped, stack)
  | .f32Const bits => .ok (.const (Val.f32 bits).toUntyped, stack)
  | .f64Const bits => .ok (.const (Val.f64 bits).toUntyped, stack)
  | .globalGet globalIndex => .ok (.global globalIndex, stack)
  | .refNull .func => .ok (.const (Val.funcRef .null).toUntyped, stack)
  | .refNull .externHeap => .ok (.const (Val.externRef .null).toUntyped, stack)
  | .refNull .other => .error .panic
  | .refFunc functionIndex => .ok (.funcRef functionIndex, stack)
  | .i32Add => exprOp stack (onI32 (· + ·))
  | .i32Sub => exprOp stack (onI32 (· - ·))
  | .i32Mul => exprOp stack (onI32 (· * ·))
  | .i64Add => exprOp stack (· + ·)
  | .i64Sub => exprOp stack (· - ·)
  | .i64Mul => exprOp stack (· * ·)
  | .endExpr | .other => .error .panic

namespace ConstExpr

-- The loop that reads the operators up to the end of the expression, which must be their last.
def newLoop (debugAssertions : Bool) : ConstExprStack → List Operator → Except Fault OpTree
  | _, [] => .error .panic
  | stack, .endExpr :: rest =>
      if rest = [] then
        match stack.pop with
        | (some op, stack) => if debugAssertions ∧ ¬stack.isEmpty then .error .panic else .ok op
        | (none, _) => .error .panic
      else .error .panic
  | stack, operator :: rest => do
      let (op, stack) ← translate stack operator
      newLoop debugAssertions (stack.push op) rest

def new (debugAssertions : Bool) (operators : List Operator) : Except Fault OpTree :=
  newLoop debugAssertions .empty operators

def newFuncref (functionIndex : UInt32) : OpTree := .funcRef functionIndex

def funcref : OpTree → Option UInt32
  | .funcRef functionIndex => some functionIndex
  | _ => none

def evalConst (op : OpTree) : Option UntypedVal := op.eval EmptyEvalContext

def evalWithContext (op : OpTree) (globalGet : UInt32 → Val) (funcGet : UInt32 → Ref) : Option UntypedVal :=
  op.eval { getGlobal := fun index => some (globalGet index), getFunc := fun index => some (funcGet index) }

end ConstExpr

end Milo.Runtime.Wasmi

import Milo.Runtime.Wasmi.InitExpr

-- The trees of valid constant expressions compute what the stack code of the module does.
namespace Milo.Runtime.Wasmi

open Milo.Rust

-- What the validator knows of a module when it checks a constant expression.
structure ModuleTypes where
  globals : List GlobalType
  numImportedGlobals : Nat
  numFunctions : Nat

namespace VisitConstOperator

variable (types : ModuleTypes)

def validateGlobal (index : UInt32) : Option ValType :=
  match types.globals[index.toNat]? with
  | none => none
  | some ty => if index.toNat ≥ types.numImportedGlobals ∨ ty.mutability = .var then none else some ty.content

def checkBinaryOp (ty : ValType) : List ValType → Option (List ValType)
  | rhs :: lhs :: stack => if rhs = ty ∧ lhs = ty then some (ty :: stack) else none
  | _ => none

-- The types on the validator's stack behind an operator, with the extended constant expressions.
def visit (stack : List ValType) : Operator → Option (List ValType)
  | .i32Const _ => some (.i32 :: stack)
  | .i64Const _ => some (.i64 :: stack)
  | .f32Const _ => some (.f32 :: stack)
  | .f64Const _ => some (.f64 :: stack)
  | .globalGet index => (validateGlobal types index).map (· :: stack)
  | .refNull .func => some (.funcRef :: stack)
  | .refNull .externHeap => some (.externRef :: stack)
  | .refNull .other => none
  | .refFunc index => if index.toNat < types.numFunctions then some (.funcRef :: stack) else none
  | .i32Add | .i32Sub | .i32Mul => checkBinaryOp .i32 stack
  | .i64Add | .i64Sub | .i64Mul => checkBinaryOp .i64 stack
  | .endExpr | .other => none

-- The end pops the expected type, and nothing may be below it or behind it.
def checkConstExpr (expected : ValType) : List ValType → List Operator → Bool
  | _, [] => false
  | stack, .endExpr :: rest => rest.isEmpty && stack == [expected]
  | stack, operator :: rest =>
      match visit types stack operator with
      | some stack => checkConstExpr expected stack rest
      | none => false

end VisitConstOperator

def execI32 (run : UInt32 → UInt32 → UInt32) : List Val → Option (List Val)
  | .i32 rhs :: .i32 lhs :: stack => some (.i32 (run lhs rhs) :: stack)
  | _ => none

def execI64 (run : UInt64 → UInt64 → UInt64) : List Val → Option (List Val)
  | .i64 rhs :: .i64 lhs :: stack => some (.i64 (run lhs rhs) :: stack)
  | _ => none

-- What an operator does to a stack of values, unless what it reads is not there.
def Operator.exec (ctx : EvalContext) : Operator → List Val → Option (List Val)
  | .i32Const value, stack => some (.i32 value :: stack)
  | .i64Const value, stack => some (.i64 value :: stack)
  | .f32Const bits, stack => some (.f32 bits :: stack)
  | .f64Const bits, stack => some (.f64 bits :: stack)
  | .globalGet index, stack => (ctx.getGlobal index).map (· :: stack)
  | .refNull .func, stack => some (.funcRef .null :: stack)
  | .refNull .externHeap, stack => some (.externRef .null :: stack)
  | .refFunc index, stack => (ctx.getFunc index).map (.funcRef · :: stack)
  | .i32Add, stack => execI32 (· + ·) stack
  | .i32Sub, stack => execI32 (· - ·) stack
  | .i32Mul, stack => execI32 (· * ·) stack
  | .i64Add, stack => execI64 (· + ·) stack
  | .i64Sub, stack => execI64 (· - ·) stack
  | .i64Mul, stack => execI64 (· * ·) stack
  | .refNull .other, _ | .endExpr, _ | .other, _ => none

-- The value of an expression: what is left on the stack at its end.
def execAll (ctx : EvalContext) : List Val → List Operator → Option Val
  | _, [] => none
  | stack, .endExpr :: _ => stack.head?
  | stack, operator :: rest => do
      let stack ← operator.exec ctx stack
      execAll ctx stack rest

-- What an operator reads that a context does not have.
def Operator.Missing (ctx : EvalContext) : Operator → Prop
  | .globalGet index => ctx.getGlobal index = none
  | .refFunc index => ctx.getFunc index = none
  | _ => False

-- The globals of a context are of the types that the validator knows.
def EvalContext.Typed (ctx : EvalContext) (types : ModuleTypes) : Prop :=
  ∀ index ty value, VisitConstOperator.validateGlobal types index = some ty →
    ctx.getGlobal index = some value → value.ty = ty

namespace ConstExprStack

def items (stack : ConstExprStack) : List OpTree := stack.top.toList ++ stack.ops

-- The vector is used only behind the top.
def Filled (stack : ConstExprStack) : Prop := stack.top = none → stack.ops = []

theorem items_push (stack : ConstExprStack) (op : OpTree) : (stack.push op).items = op :: stack.items := rfl

theorem filled_push (stack : ConstExprStack) (op : OpTree) : (stack.push op).Filled :=
  fun h => nomatch h

theorem pop_items {stack : ConstExprStack} {op : OpTree} {rest : List OpTree} (h : stack.Filled)
    (hitems : stack.items = op :: rest) :
    ∃ below, stack.pop = (some op, below) ∧ below.Filled ∧ below.items = rest := by
  obtain ⟨top, ops⟩ := stack
  cases top with
  | none =>
      rw [show ops = [] from h rfl] at hitems
      cases hitems
  | some top =>
      cases hitems
      cases ops with
      | nil => exact ⟨_, rfl, fun _ => rfl, rfl⟩
      | cons next ops => exact ⟨_, rfl, (nomatch ·), rfl⟩

theorem pop2_items {stack : ConstExprStack} {lhs rhs : OpTree} {rest : List OpTree} (h : stack.Filled)
    (hitems : stack.items = rhs :: lhs :: rest) :
    ∃ below, stack.pop2 = some ((lhs, rhs), below) ∧ below.Filled ∧ below.items = rest := by
  obtain ⟨between, hrhs, hfilled, hbetween⟩ := pop_items h hitems
  obtain ⟨below, hlhs, hfilled, hbelow⟩ := pop_items hfilled hbetween
  unfold pop2
  rw [hrhs]
  dsimp only
  rw [hlhs]
  exact ⟨below, rfl, hfilled, hbelow⟩

end ConstExprStack

section Sound

open VisitConstOperator

variable {types : ModuleTypes} {ctx : EvalContext} {values : List Val} {kinds : List ValType}
  {operator : Operator}

theorem ty_eq_i32 {value : Val} (h : value.ty = .i32) : ∃ number, value = .i32 number := by
  cases value with
  | i32 number => exact ⟨number, rfl⟩
  | _ => cases h

theorem ty_eq_i64 {value : Val} (h : value.ty = .i64) : ∃ number, value = .i64 number := by
  cases value with
  | i64 number => exact ⟨number, rfl⟩
  | _ => cases h

theorem validateGlobal_eq_some {index : UInt32} {ty : ValType} (h : validateGlobal types index = some ty) :
    ∃ global, types.globals[index.toNat]? = some global ∧
      (index.toNat < types.numImportedGlobals ∧ global.mutability ≠ .var) ∧ global.content = ty := by
  unfold validateGlobal at h
  split at h
  next => cases h
  next global hglobal =>
    split_ifs at h with hnot
    rw [not_or, Nat.not_le] at hnot
    exact ⟨global, hglobal, hnot, Option.some.inj h⟩

theorem checkBinaryOp_eq_some {ty : ValType} {before behind : List ValType}
    (h : checkBinaryOp ty before = some behind) : ∃ below, before = ty :: ty :: below ∧ behind = ty :: below := by
  unfold checkBinaryOp at h
  split at h
  next rhs lhs below =>
    split_ifs at h with htypes
    obtain ⟨rfl, rfl⟩ := htypes
    exact ⟨below, rfl, (Option.some.inj h).symm⟩
  next => cases h

-- What an operator does to a stack of operands that the validator lets through: it computes a
-- value of the type that the validator pushes.
structure Combines (operator : Operator) (ty : ValType) (run : UntypedVal → UntypedVal → UntypedVal) : Prop where
  translate : ∀ stack, translate stack operator = exprOp stack run
  visit : ∀ types kinds, visit types kinds operator = checkBinaryOp ty kinds
  exec : ∀ ctx (lhs rhs : Val) values, lhs.ty = ty → rhs.ty = ty → ∃ value : Val,
    operator.exec ctx (rhs :: lhs :: values) = some (value :: values) ∧ value.ty = ty ∧
      value.toUntyped = run lhs.toUntyped rhs.toUntyped
  missing : ∀ ctx, ¬operator.Missing ctx

-- A tree that is a function reference has the type of one.
def OpTree.Refers (tree : OpTree) (ty : ValType) : Prop := (ConstExpr.funcref tree).isSome → ty = .funcRef

-- The other operators of a valid expression push one value.
structure Pushes (types : ModuleTypes) (operator : Operator) (ty : ValType) (tree : OpTree)
    (value : EvalContext → Option Val) : Prop where
  translate : ∀ stack, translate stack operator = .ok (tree, stack)
  exec : ∀ ctx values, operator.exec ctx values = (value ctx).map (· :: values)
  eval : ∀ ctx, tree.eval ctx = (value ctx).map Val.toUntyped
  typed : ∀ ctx, ctx.Typed types → ∀ v ∈ value ctx, v.ty = ty
  missing : ∀ ctx, operator.Missing ctx ↔ value ctx = none
  funcref : tree.Refers ty

theorem combines_i32 {operator : Operator} {run : UInt32 → UInt32 → UInt32}
    (htranslate : ∀ stack, translate stack operator = exprOp stack (onI32 run))
    (hvisit : ∀ types kinds, visit types kinds operator = checkBinaryOp .i32 kinds)
    (hexec : ∀ ctx lhs rhs values,
      operator.exec ctx (.i32 rhs :: .i32 lhs :: values) = some (.i32 (run lhs rhs) :: values))
    (hmissing : ∀ ctx, ¬operator.Missing ctx) : Combines operator .i32 (onI32 run) where
  translate := htranslate
  visit := hvisit
  exec ctx lhs rhs values hlhs hrhs := by
    obtain ⟨lhs, rfl⟩ := ty_eq_i32 hlhs
    obtain ⟨rhs, rfl⟩ := ty_eq_i32 hrhs
    refine ⟨_, hexec ctx lhs rhs values, rfl, ?_⟩
    unfold onI32 Val.toUntyped
    simp only [UInt32.toUInt32_toUInt64]
  missing := hmissing

theorem combines_i64 {operator : Operator} {run : UInt64 → UInt64 → UInt64}
    (htranslate : ∀ stack, translate stack operator = exprOp stack run)
    (hvisit : ∀ types kinds, visit types kinds operator = checkBinaryOp .i64 kinds)
    (hexec : ∀ ctx lhs rhs values,
      operator.exec ctx (.i64 rhs :: .i64 lhs :: values) = some (.i64 (run lhs rhs) :: values))
    (hmissing : ∀ ctx, ¬operator.Missing ctx) : Combines operator .i64 run where
  translate := htranslate
  visit := hvisit
  exec ctx lhs rhs values hlhs hrhs := by
    obtain ⟨lhs, rfl⟩ := ty_eq_i64 hlhs
    obtain ⟨rhs, rfl⟩ := ty_eq_i64 hrhs
    exact ⟨_, hexec ctx lhs rhs values, rfl, rfl⟩
  missing := hmissing

theorem pushes_const (value : Val) {operator : Operator} (hvisit : some (value.ty :: kinds) = some behind)
    (htranslate : ∀ stack, translate stack operator = .ok (.const value.toUntyped, stack))
    (hexec : ∀ ctx values, operator.exec ctx values = some (value :: values))
    (hmissing : ∀ ctx, ¬operator.Missing ctx) :
    ∃ ty tree value, behind = ty :: kinds ∧ Pushes types operator ty tree value :=
  ⟨value.ty, .const value.toUntyped, fun _ => some value, (Option.some.inj hvisit).symm,
    { translate := htranslate
      exec := hexec
      eval := fun _ => rfl
      typed := by rintro _ _ _ ⟨⟩; rfl
      missing := fun ctx => ⟨fun h => absurd h (hmissing ctx), (nomatch ·)⟩
      funcref := (nomatch ·) }⟩

-- An operator that the validator lets through is of one of the two kinds.
theorem visit_cases (h : visit types kinds operator = some behind) :
    (∃ ty run below, kinds = ty :: ty :: below ∧ behind = ty :: below ∧ Combines operator ty run) ∨
      ∃ ty tree value, behind = ty :: kinds ∧ Pushes types operator ty tree value := by
  cases operator with
  | i32Const value => exact .inr (pushes_const (.i32 value) h (fun _ => rfl) (fun _ _ => rfl) fun _ => id)
  | i64Const value => exact .inr (pushes_const (.i64 value) h (fun _ => rfl) (fun _ _ => rfl) fun _ => id)
  | f32Const bits => exact .inr (pushes_const (.f32 bits) h (fun _ => rfl) (fun _ _ => rfl) fun _ => id)
  | f64Const bits => exact .inr (pushes_const (.f64 bits) h (fun _ => rfl) (fun _ _ => rfl) fun _ => id)
  | globalGet index =>
      obtain ⟨ty, hty, rfl⟩ := Option.map_eq_some_iff.mp h
      exact .inr ⟨ty, .global index, fun ctx => ctx.getGlobal index, rfl,
        { translate := fun _ => rfl
          exec := fun _ _ => rfl
          eval := fun _ => rfl
          typed := fun ctx htyped value hvalue => htyped index ty value hty hvalue
          missing := fun _ => Iff.rfl
          funcref := (nomatch ·) }⟩
  | refNull hty =>
      cases hty with
      | func => exact .inr (pushes_const (.funcRef .null) h (fun _ => rfl) (fun _ _ => rfl) fun _ => id)
      | externHeap => exact .inr (pushes_const (.externRef .null) h (fun _ => rfl) (fun _ _ => rfl) fun _ => id)
      | other => cases h
  | refFunc index =>
      change (if _ then _ else _) = _ at h
      split_ifs at h
      cases Option.some.inj h
      exact .inr ⟨.funcRef, .funcRef index, fun ctx => (ctx.getFunc index).map .funcRef, rfl,
        { translate := fun _ => rfl
          exec := fun ctx values => by cases hfunc : ctx.getFunc index <;> simp [Operator.exec, hfunc]
          eval := fun ctx => by cases hfunc : ctx.getFunc index <;> simp [OpTree.eval, hfunc, Val.toUntyped]
          typed := by
            intro ctx _ value hvalue
            obtain ⟨_, _, rfl⟩ := Option.map_eq_some_iff.mp hvalue
            rfl
          missing := fun ctx => Option.map_eq_none_iff.symm
          funcref := fun _ => rfl }⟩
  | i32Add | i32Sub | i32Mul =>
      obtain ⟨below, rfl, rfl⟩ := checkBinaryOp_eq_some h
      exact .inl ⟨_, _, below, rfl, rfl,
        combines_i32 (fun _ => rfl) (fun _ _ => rfl) (fun _ _ _ _ => rfl) fun _ => id⟩
  | i64Add | i64Sub | i64Mul =>
      obtain ⟨below, rfl, rfl⟩ := checkBinaryOp_eq_some h
      exact .inl ⟨_, _, below, rfl, rfl,
        combines_i64 (fun _ => rfl) (fun _ _ => rfl) (fun _ _ _ _ => rfl) fun _ => id⟩
  | endExpr | other => cases h

-- The reference goes on with values of the types that the validator has, unless the operator reads
-- what the context does not have.
theorem exec_sound (htyped : ctx.Typed types) (h : visit types (values.map Val.ty) operator = some behind) :
    (∃ next, operator.exec ctx values = some next ∧ next.map Val.ty = behind ∧ ¬operator.Missing ctx) ∨
      operator.exec ctx values = none ∧ operator.Missing ctx := by
  rcases visit_cases h with ⟨ty, run, below, hkinds, rfl, hcombines⟩ | ⟨ty, tree, value, rfl, hpushes⟩
  · obtain ⟨rhs, values, rfl, hrhs, hkinds⟩ := List.map_eq_cons_iff.mp hkinds
    obtain ⟨lhs, values, rfl, hlhs, rfl⟩ := List.map_eq_cons_iff.mp hkinds
    obtain ⟨result, hexec, hty, _⟩ := hcombines.exec ctx lhs rhs values hlhs hrhs
    refine .inl ⟨_, hexec, ?_, hcombines.missing ctx⟩
    rw [List.map_cons, hty]
  · rw [hpushes.exec, hpushes.missing]
    cases hvalue : value ctx with
    | none => exact .inr ⟨rfl, rfl⟩
    | some result =>
        refine .inl ⟨_, rfl, ?_, (nomatch ·)⟩
        rw [List.map_cons, hpushes.typed ctx htyped result hvalue]

theorem execAll_sound {expected : ValType} {body : List Operator} (htyped : ctx.Typed types)
    (h : checkConstExpr types expected (values.map Val.ty) body) :
    (∃ value, execAll ctx values body = some value ∧ value.ty = expected ∧
        ∀ operator ∈ body, ¬operator.Missing ctx) ∨
      execAll ctx values body = none ∧ ∃ operator ∈ body, operator.Missing ctx := by
  induction body generalizing values with
  | nil => cases h
  | cons operator rest ih =>
      by_cases hend : operator = .endExpr
      · subst hend
        have hend := Bool.and_eq_true_iff.mp h
        obtain rfl := List.isEmpty_iff.mp hend.1
        obtain ⟨value, rfl, hvalue⟩ := List.map_eq_singleton_iff.mp (beq_iff_eq.mp hend.2)
        refine .inl ⟨value, rfl, hvalue, fun operator hmem => ?_⟩
        cases List.mem_singleton.mp hmem
        exact id
      · rw [checkConstExpr.eq_3 _ _ _ _ _ hend] at h
        split at h
        next behind hvisit =>
          rw [execAll.eq_3 _ _ _ _ hend]
          rcases exec_sound htyped hvisit with ⟨next, hexec, rfl, hthere⟩ | ⟨hexec, hmissing⟩
          · rw [hexec]
            rcases ih h with ⟨value, hvalue, hty, hall⟩ | ⟨hnone, missing, hmem, hmissing⟩
            · exact .inl ⟨value, hvalue, hty, List.forall_mem_cons.mpr ⟨hthere, hall⟩⟩
            · exact .inr ⟨hnone, missing, List.mem_cons_of_mem _ hmem, hmissing⟩
          · rw [hexec]
            exact .inr ⟨rfl, operator, List.mem_cons_self, hmissing⟩
        next => cases h

-- A context that has more than another gives the same values where the other has them.
structure EvalContext.Extends (ctx' ctx : EvalContext) : Prop where
  getGlobal : ∀ index value, ctx.getGlobal index = some value → ctx'.getGlobal index = some value
  getFunc : ∀ index value, ctx.getFunc index = some value → ctx'.getFunc index = some value

theorem exec_extends {ctx' : EvalContext} (h : ctx'.Extends ctx) {next : List Val}
    (hexec : operator.exec ctx values = some next) : operator.exec ctx' values = some next := by
  cases operator with
  | globalGet index =>
      obtain ⟨value, hvalue, rfl⟩ := Option.map_eq_some_iff.mp hexec
      exact Option.map_eq_some_iff.mpr ⟨value, h.getGlobal index value hvalue, rfl⟩
  | refFunc index =>
      obtain ⟨value, hvalue, rfl⟩ := Option.map_eq_some_iff.mp hexec
      exact Option.map_eq_some_iff.mpr ⟨value, h.getFunc index value hvalue, rfl⟩
  | refNull hty => cases hty <;> exact hexec
  | _ => exact hexec

theorem execAll_extends {ctx' : EvalContext} (h : ctx'.Extends ctx) {body : List Operator} {value : Val}
    (hexec : execAll ctx values body = some value) : execAll ctx' values body = some value := by
  induction body generalizing values with
  | nil => exact hexec
  | cons operator rest ih =>
      by_cases hend : operator = .endExpr
      · subst hend
        exact hexec
      · rw [execAll.eq_3 _ _ _ _ hend] at hexec ⊢
        obtain ⟨next, hnext, hexec⟩ := Option.bind_eq_some_iff.mp hexec
        exact Option.bind_eq_some_iff.mpr ⟨next, exec_extends h hnext, ih hexec⟩

end Sound

-- The stack of the translation has a tree for each value of the reference, which computes it, and
-- one that computes nothing when the reference has stopped.
structure Tracks (types : ModuleTypes) (stack : ConstExprStack) (kinds : List ValType)
    (values : EvalContext → Option (List Val)) : Prop where
  filled : stack.Filled
  refers : List.Forall₂ OpTree.Refers stack.items kinds
  typed : ∀ ctx, ctx.Typed types → ∀ vs ∈ values ctx, vs.map Val.ty = kinds
  denotes : ∀ ctx, ctx.Typed types →
    stack.items.mapM (OpTree.eval ctx) = (values ctx).map (List.map Val.toUntyped)

section Tracks

open VisitConstOperator

variable {types : ModuleTypes} {stack : ConstExprStack} {kinds behind : List ValType}
  {values : EvalContext → Option (List Val)} {operator : Operator}

theorem mapM_cons {ctx : EvalContext} {tree : OpTree} {trees : List OpTree} :
    (tree :: trees).mapM (OpTree.eval ctx) =
      (tree.eval ctx).bind fun value => (trees.mapM (OpTree.eval ctx)).map (value :: ·) := by
  rw [List.mapM_cons]
  cases tree.eval ctx with
  | none => rfl
  | some value => cases trees.mapM (OpTree.eval ctx) <;> rfl

theorem eval_defExpr {ctx : EvalContext} {run : UntypedVal → UntypedVal → UntypedVal} {lhs rhs : OpTree} :
    (defExpr run lhs rhs).eval ctx =
      (lhs.eval ctx).bind fun lhs => (rhs.eval ctx).bind fun rhs => some (run lhs rhs) := rfl

theorem translate_tracks (h : Tracks types stack kinds values) (hvisit : visit types kinds operator = some behind) :
    ∃ tree below, translate stack operator = .ok (tree, below) ∧
      Tracks types (below.push tree) behind fun ctx => (values ctx).bind (operator.exec ctx) := by
  have htyped : ∀ ctx, ctx.Typed types → ∀ vs ∈ (values ctx).bind (operator.exec ctx), vs.map Val.ty = behind := by
    intro ctx hctx vs hvs
    obtain ⟨before, hbefore, hexec⟩ := Option.bind_eq_some_iff.mp hvs
    rw [← h.typed ctx hctx before hbefore] at hvisit
    rcases exec_sound hctx hvisit with ⟨next, hnext, hkinds, _⟩ | ⟨hnone, _⟩
    · cases hexec.symm.trans hnext
      exact hkinds
    · cases hexec.symm.trans hnone
  rcases visit_cases hvisit with ⟨ty, run, rest, rfl, rfl, hcombines⟩ | ⟨ty, tree, value, rfl, hpushes⟩
  · obtain ⟨rhs, trees, _, hkinds, hitems⟩ := List.forall₂_cons_right_iff.mp h.refers
    obtain ⟨lhs, trees, _, hrest, rfl⟩ := List.forall₂_cons_right_iff.mp hkinds
    obtain ⟨below, hpop, _, hbelow⟩ := ConstExprStack.pop2_items h.filled hitems
    refine ⟨defExpr run lhs rhs, below, ?_, ConstExprStack.filled_push below _, ?_, htyped, fun ctx hctx => ?_⟩
    · rw [hcombines.translate]
      unfold exprOp
      rw [hpop]
    · rw [ConstExprStack.items_push, hbelow]
      exact .cons (nomatch ·) hrest
    · rw [ConstExprStack.items_push, hbelow, mapM_cons, eval_defExpr]
      have hdenotes := h.denotes ctx hctx
      rw [hitems, mapM_cons, mapM_cons] at hdenotes
      cases hvalues : values ctx with
      | none =>
          rw [hvalues] at hdenotes
          cases hlhs : lhs.eval ctx <;> cases hrhs : rhs.eval ctx <;>
            cases hrest : trees.mapM (OpTree.eval ctx) <;> simp_all
      | some vs =>
          have hvs := h.typed ctx hctx vs hvalues
          obtain ⟨right, vs, rfl, hright, hvs⟩ := List.map_eq_cons_iff.mp hvs
          obtain ⟨left, vs, rfl, hleft, _⟩ := List.map_eq_cons_iff.mp hvs
          obtain ⟨result, hexec, _, hresult⟩ := hcombines.exec ctx left right vs hleft hright
          rw [hvalues] at hdenotes
          rw [Option.bind_some, hexec]
          cases hlhs : lhs.eval ctx <;> cases hrhs : rhs.eval ctx <;>
            cases hrest : trees.mapM (OpTree.eval ctx) <;> simp_all
  · refine ⟨tree, stack, hpushes.translate stack, ConstExprStack.filled_push stack _, ?_, htyped, fun ctx hctx => ?_⟩
    · rw [ConstExprStack.items_push]
      exact .cons hpushes.funcref h.refers
    · rw [ConstExprStack.items_push, mapM_cons, hpushes.eval, h.denotes ctx hctx]
      cases hvalues : values ctx with
      | none => cases value ctx <;> rfl
      | some vs =>
          rw [Option.bind_some, hpushes.exec]
          cases value ctx <;> rfl

theorem newLoop_tracks {expected : ValType} {body : List Operator} (debugAssertions : Bool)
    (h : Tracks types stack kinds values) (hcheck : checkConstExpr types expected kinds body) :
    ∃ tree, ConstExpr.newLoop debugAssertions stack body = .ok tree ∧ tree.Refers expected ∧
      ∀ ctx, ctx.Typed types →
        tree.eval ctx = ((values ctx).bind fun values => execAll ctx values body).map Val.toUntyped := by
  induction body generalizing stack kinds values with
  | nil => cases hcheck
  | cons operator rest ih =>
      by_cases hend : operator = .endExpr
      · subst hend
        have hend := Bool.and_eq_true_iff.mp hcheck
        obtain rfl := List.isEmpty_iff.mp hend.1
        obtain rfl := beq_iff_eq.mp hend.2
        obtain ⟨tree, _, hrefers, hnil, hitems⟩ := List.forall₂_cons_right_iff.mp h.refers
        obtain rfl := List.forall₂_nil_right_iff.mp hnil
        obtain ⟨below, hpop, hfilled, hbelow⟩ := ConstExprStack.pop_items h.filled hitems
        have hempty : below.isEmpty = true := List.isEmpty_iff.mpr (List.append_eq_nil_iff.mp hbelow).2
        refine ⟨tree, ?_, hrefers, fun ctx hctx => ?_⟩
        · rw [ConstExpr.newLoop, if_pos rfl, hpop]
          dsimp only
          rw [if_neg fun hnot => hnot.2 hempty]
        · have hdenotes := h.denotes ctx hctx
          rw [hitems, mapM_cons] at hdenotes
          cases hvalues : values ctx with
          | none =>
              rw [hvalues] at hdenotes
              cases heval : tree.eval ctx with
              | none => rfl
              | some value => rw [heval] at hdenotes; cases hdenotes
          | some vs =>
              obtain ⟨value, rfl, _⟩ := List.map_eq_singleton_iff.mp (h.typed ctx hctx vs hvalues)
              rw [hvalues] at hdenotes
              cases heval : tree.eval ctx with
              | none => rw [heval] at hdenotes; cases hdenotes
              | some result => rw [heval] at hdenotes; cases hdenotes; rfl
      · rw [checkConstExpr.eq_3 _ _ _ _ _ hend] at hcheck
        split at hcheck
        next behind hvisit =>
          obtain ⟨op, below, htranslate, htracks⟩ := translate_tracks h hvisit
          obtain ⟨tree, hnew, hrefers, heval⟩ := ih htracks hcheck
          refine ⟨tree, ?_, hrefers, fun ctx hctx => ?_⟩
          · rw [ConstExpr.newLoop.eq_3 _ _ _ _ hend, htranslate]
            exact hnew
          · rw [heval ctx hctx]
            congr 1
            cases hvalues : values ctx with
            | none => rfl
            | some vs =>
                rw [Option.bind_some, Option.bind_some, execAll.eq_3 _ _ _ _ hend]
                rfl
        next => cases hcheck

-- A valid constant expression becomes a tree, with no panic, that has the value of the stack code
-- in every context, and none exactly where the code reads a global or function that is not there.
theorem constExpr_preserves {expected : ValType} {body : List Operator} (debugAssertions : Bool)
    (hcheck : checkConstExpr types expected [] body) :
    ∃ tree, ConstExpr.new debugAssertions body = .ok tree ∧ tree.Refers expected ∧ ∀ ctx, ctx.Typed types →
      (∃ value, execAll ctx [] body = some value ∧ value.ty = expected ∧
          tree.eval ctx = some value.toUntyped ∧ ∀ operator ∈ body, ¬operator.Missing ctx) ∨
        execAll ctx [] body = none ∧ tree.eval ctx = none ∧ ∃ operator ∈ body, operator.Missing ctx := by
  have hempty : Tracks types .empty [] fun _ => some [] :=
    { filled := fun _ => rfl
      refers := .nil
      typed := by rintro _ _ _ ⟨⟩; rfl
      denotes := fun _ _ => rfl }
  obtain ⟨tree, hnew, hrefers, heval⟩ := newLoop_tracks debugAssertions hempty hcheck
  refine ⟨tree, hnew, hrefers, fun ctx hctx => ?_⟩
  rw [heval ctx hctx, Option.bind_some]
  have hsound : checkConstExpr types expected (List.map Val.ty []) body := hcheck
  rcases execAll_sound hctx hsound with ⟨value, hvalue, hty, hall⟩ | ⟨hnone, hmissing⟩
  · rw [hvalue]
    exact .inl ⟨value, rfl, hty, rfl, hall⟩
  · rw [hnone]
    exact .inr ⟨rfl, rfl, hmissing⟩

-- Two more than twice an imported number.
def twiceAndTwo : List Operator :=
  [.globalGet 0, .i32Const 2, .i32Mul, .i32Const 2, .i32Add, .endExpr]

theorem constExpr_preserves_twiceAndTwo :
    ∃ tree, ConstExpr.new true twiceAndTwo = .ok tree ∧
      ConstExpr.evalWithContext tree (fun _ => .i32 20) (fun _ => .null) = some 42 ∧
      ConstExpr.evalConst tree = none := by
  have hcheck : checkConstExpr ⟨[⟨.i32, .const⟩], 1, 0⟩ .i32 [] twiceAndTwo = true := rfl
  obtain ⟨tree, hnew, _, heval⟩ := constExpr_preserves true hcheck
  have htyped : EvalContext.Typed ⟨fun _ => some (.i32 20), fun _ => some .null⟩ ⟨[⟨.i32, .const⟩], 1, 0⟩ := by
    rintro index ty _ hty ⟨⟩
    obtain ⟨global, hglobal, _, rfl⟩ := validateGlobal_eq_some hty
    have hmem := List.mem_of_getElem? hglobal
    rw [List.mem_singleton.mp hmem]
    rfl
  refine ⟨tree, hnew, ?_, ?_⟩
  · rcases heval _ htyped with ⟨value, hvalue, _, htree, _⟩ | ⟨hnone, _⟩
    · cases hvalue
      exact htree
    · cases hnone
  · rcases heval EmptyEvalContext (fun _ _ _ _ h => nomatch h) with ⟨value, hvalue, _⟩ | ⟨_, htree, _⟩
    · cases hvalue
    · exact htree

end Tracks

end Milo.Runtime.Wasmi

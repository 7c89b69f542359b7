import Milo.Runtime.Wasmi.InitExpr.Preserved
import Milo.Runtime.Wasmi.Instantiate

-- The globals that a module defines hold what their code computes, and what the translation of
-- the functions takes them to hold.
namespace Milo.Runtime.Wasmi

open Milo.Rust VisitConstOperator

def IndexType.valType : IndexType → ValType
  | .i32 => .i32
  | .i64 => .i64

def WasmModule.types (wasm : WasmModule) (numFunctions : Nat) : ModuleTypes where
  globals := wasm.importedGlobals ++ wasm.globals.map Prod.fst
  numImportedGlobals := wasm.importedGlobals.length
  numFunctions

def Data.Valid (data : Data) (types : ModuleTypes) (memories : List IndexType) : Prop :=
  data.data.length < 2 ^ 32 ∧
    match data.kind with
    | .passive => True
    | .active memoryIndex offsetExpr => ∃ ty, memories[memoryIndex.toNat]? = some ty ∧
        checkConstExpr types ty.valType [] offsetExpr

-- What the validator has checked of a module.
structure WasmModule.Valid (wasm : WasmModule) (numFunctions : Nat) (memories : List IndexType) : Prop where
  globals : ∀ global ∈ wasm.globals, checkConstExpr (wasm.types numFunctions) global.1.content [] global.2
  datas : ∀ data ∈ wasm.datas, data.Valid (wasm.types numFunctions) memories

namespace InstanceEntityBuilder

variable {M : Nat}

-- An instance that has what a module imports, and its functions and memories.
structure Imports (builder : InstanceEntityBuilder M) (wasm : WasmModule) (numFunctions : Nat) : Prop where
  globals : builder.globals.map Val.ty = wasm.importedGlobals.map GlobalType.content
  funcs : builder.funcs.length = numFunctions

-- And one that has been given more globals behind them.
def Grows (grown builder : InstanceEntityBuilder M) : Prop :=
  grown.funcs = builder.funcs ∧ builder.globals <+: grown.globals

end InstanceEntityBuilder

section Values

variable {M : Nat} {builder grown : InstanceEntityBuilder M} {wasm : WasmModule} {numFunctions : Nat}
  {types : ModuleTypes} {ctx : EvalContext} {expected : ValType} {body : List Operator}

-- What the validator lets an expression read is there.
structure EvalContext.Complete (ctx : EvalContext) (types : ModuleTypes) : Prop where
  globals : ∀ index ty, validateGlobal types index = some ty → ctx.getGlobal index ≠ none
  funcs : ∀ index : UInt32, index.toNat < types.numFunctions → ctx.getFunc index ≠ none

theorem visit_present {kinds behind : List ValType} {operator : Operator} (hcomplete : ctx.Complete types)
    (h : visit types kinds operator = some behind) : ¬operator.Missing ctx := by
  cases operator with
  | globalGet index =>
      obtain ⟨ty, hty, _⟩ := Option.map_eq_some_iff.mp h
      exact hcomplete.globals index ty hty
  | refFunc index =>
      change (if _ then _ else _) = _ at h
      split_ifs at h with hlt
      exact hcomplete.funcs index hlt
  | _ => exact id

theorem check_present {kinds : List ValType} (hcomplete : ctx.Complete types)
    (h : checkConstExpr types expected kinds body) : ∀ operator ∈ body, ¬operator.Missing ctx := by
  induction body generalizing kinds with
  | nil => cases h
  | cons operator rest ih =>
      by_cases hend : operator = .endExpr
      · subst hend
        obtain rfl := List.isEmpty_iff.mp (Bool.and_eq_true_iff.mp h).1
        intro operator hmem
        cases List.mem_singleton.mp hmem
        exact id
      · rw [checkConstExpr.eq_3 _ _ _ _ _ hend] at h
        split at h
        next behind hvisit => exact List.forall_mem_cons.mpr ⟨visit_present hcomplete hvisit, ih h⟩
        next => cases h

theorem Ref.ofUntyped_toUntyped (ref : Ref) : Ref.ofUntyped ref.toUntyped = ref := by
  cases ref with
  | null => rfl
  | val bits =>
      unfold Ref.ofUntyped
      exact dif_pos bits.2

theorem withType_toUntyped (value : Val) : withType value.toUntyped value.ty = .ok value := by
  cases value with
  | i32 | f32 => simp only [withType, Val.toUntyped, Val.ty, UInt32.toUInt32_toUInt64]
  | i64 | f64 => rfl
  | funcRef value | externRef value => simp only [withType, Val.toUntyped, Val.ty, Ref.ofUntyped_toUntyped]

theorem toUntyped_injective {value value' : Val} (hty : value.ty = value'.ty)
    (h : value.toUntyped = value'.toUntyped) : value = value' := by
  have hself := withType_toUntyped value
  rw [h, hty, withType_toUntyped] at hself
  exact (Except.ok.inj hself).symm

namespace InstanceEntityBuilder

theorem grows_refl : builder.Grows builder := ⟨rfl, List.prefix_rfl⟩

theorem Grows.extends (h : grown.Grows builder) : grown.context.Extends builder.context where
  getGlobal index value hvalue := by
    obtain ⟨more, hmore⟩ := h.2
    have hlt := (List.getElem?_eq_some_iff.mp hvalue).1
    show grown.globals[index.toNat]? = some value
    rw [← hmore, List.getElem?_append_left hlt]
    exact hvalue
  getFunc index value hvalue := by
    show (grown.funcs[index.toNat]?).map Ref.val = some value
    rw [h.1]
    exact hvalue

-- The imported globals are those that a constant expression may read.
theorem Imports.validated {index : UInt32} {ty : ValType} (himports : builder.Imports wasm numFunctions)
    (hty : validateGlobal (wasm.types numFunctions) index = some ty) :
    ∃ value, builder.context.getGlobal index = some value ∧ value.ty = ty := by
  obtain ⟨global, hglobal, ⟨hlt, _⟩, rfl⟩ := validateGlobal_eq_some hty
  rw [show (wasm.types numFunctions).globals = wasm.importedGlobals ++ wasm.globals.map Prod.fst from rfl,
    List.getElem?_append_left hlt] at hglobal
  have hmap : (builder.globals.map Val.ty)[index.toNat]? = some global.content := by
    rw [himports.globals, List.getElem?_map, hglobal]
    rfl
  rw [List.getElem?_map] at hmap
  exact Option.map_eq_some_iff.mp hmap

theorem Imports.typed (himports : builder.Imports wasm numFunctions) (h : grown.Grows builder) :
    grown.context.Typed (wasm.types numFunctions) := by
  intro index ty value hty hvalue
  obtain ⟨value', hvalue', rfl⟩ := himports.validated hty
  cases hvalue.symm.trans (h.extends.getGlobal index value' hvalue')
  rfl

theorem Imports.complete (himports : builder.Imports wasm numFunctions) :
    builder.context.Complete (wasm.types numFunctions) where
  globals index ty hty := by
    obtain ⟨value, hvalue, _⟩ := himports.validated hty
    rw [hvalue]
    exact (nomatch ·)
  funcs index hlt := by
    have hlt : index.toNat < builder.funcs.length := himports.funcs ▸ hlt
    show (builder.funcs[index.toNat]?).map Ref.val ≠ none
    rw [List.getElem?_eq_getElem hlt]
    exact (nomatch ·)

end InstanceEntityBuilder

-- A tree that computes what an expression does, while the instance grows, and gives it away where
-- it needs no instance.
structure Computes (builder : InstanceEntityBuilder M) (tree : OpTree) (value : Val) : Prop where
  eval : ∀ grown : InstanceEntityBuilder M, grown.Grows builder → grown.evalInitExpr tree = .ok value.toUntyped
  const : ∀ untyped, ConstExpr.evalConst tree = some untyped → untyped = value.toUntyped
  funcref : ∀ index, ConstExpr.funcref tree = some index →
    ∃ func, builder.context.getFunc index = some func ∧ value = .funcRef func

open InstanceEntityBuilder in
theorem computes_of_valid (debugAssertions : Bool) (himports : builder.Imports wasm numFunctions)
    (hcheck : checkConstExpr (wasm.types numFunctions) expected [] body) :
    ∃ tree value, ConstExpr.new debugAssertions body = .ok tree ∧
      execAll builder.context [] body = some value ∧ value.ty = expected ∧ Computes builder tree value := by
  obtain ⟨tree, hnew, hrefers, heval⟩ := constExpr_preserves debugAssertions hcheck
  have hpresent := check_present himports.complete hcheck
  rcases heval _ (himports.typed grows_refl) with ⟨value, hvalue, hty, htree, _⟩ | ⟨_, _, operator, hmem, hmissing⟩
  swap
  · exact absurd hmissing (hpresent operator hmem)
  refine ⟨tree, value, hnew, hvalue, hty, fun grown hgrown => ?_, fun untyped hconst => ?_, fun index href => ?_⟩
  · have hexec := execAll_extends hgrown.extends hvalue
    rcases heval _ (himports.typed hgrown) with ⟨value', hvalue', _, htree', _⟩ | ⟨hnone, _⟩
    · cases hvalue'.symm.trans hexec
      unfold evalInitExpr
      rw [htree']
    · cases hnone.symm.trans hexec
  · have hempty : EvalContext.Typed EmptyEvalContext (wasm.types numFunctions) := fun _ _ _ _ h => nomatch h
    have hextends : builder.context.Extends EmptyEvalContext := ⟨fun _ _ => (nomatch ·), fun _ _ => (nomatch ·)⟩
    rcases heval _ hempty with ⟨value', hvalue', _, htree', _⟩ | ⟨_, hnone, _⟩
    · cases (execAll_extends hextends hvalue').symm.trans hvalue
      exact Option.some.inj (hconst.symm.trans htree')
    · cases hconst.symm.trans hnone
  · have hexpected := hrefers (by rw [href]; rfl)
    obtain rfl : tree = .funcRef index := by
      cases tree with
      | funcRef index' =>
          cases Option.some.inj href
          rfl
      | _ => cases href
    obtain ⟨func, hfunc, huntyped⟩ := Option.map_eq_some_iff.mp htree
    exact ⟨func, hfunc, toUntyped_injective (hty.trans hexpected) huntyped.symm⟩

-- What a global that a module defines is built to, and the value that it holds then.
structure HoldsGlobal (debugAssertions : Bool) (builder : InstanceEntityBuilder M)
    (global : GlobalType × List Operator) (held : OpTree × Val) : Prop where
  new : ConstExpr.new debugAssertions global.2 = .ok held.1
  exec : execAll builder.context [] global.2 = some held.2
  ty : held.2.ty = global.1.content
  computes : Computes builder held.1 held.2

theorem globals_built (debugAssertions : Bool) (himports : builder.Imports wasm numFunctions)
    {globals : List (GlobalType × List Operator)}
    (hvalid : ∀ global ∈ globals, checkConstExpr (wasm.types numFunctions) global.1.content [] global.2) :
    ∃ held, List.Forall₂ (HoldsGlobal debugAssertions builder) globals held ∧
      globals.mapM (fun global => ConstExpr.new debugAssertions global.2) = .ok (held.map Prod.fst) := by
  induction globals with
  | nil => exact ⟨[], .nil, rfl⟩
  | cons global rest ih =>
      obtain ⟨hfirst, hrest⟩ := List.forall_mem_cons.mp hvalid
      obtain ⟨tree, value, hnew, hexec, hty, hcomputes⟩ := computes_of_valid debugAssertions himports hfirst
      obtain ⟨held, hheld, hmapM⟩ := ih hrest
      refine ⟨(tree, value) :: held, .cons ⟨hnew, hexec, hty, hcomputes⟩ hheld, ?_⟩
      rw [List.mapM_cons, hnew, hmapM]
      rfl

-- And what a data segment is built to.
inductive HoldsSegment (builder : InstanceEntityBuilder M) : Data → DataSegment → Prop where
  | passive {data : Bytes} : HoldsSegment builder ⟨.passive, data⟩ (.passive data)
  | active {memoryIndex : UInt32} {offsetExpr : List Operator} {data : Bytes} {tree : OpTree} {value : Val}
      (hexec : execAll builder.context [] offsetExpr = some value) (hcomputes : Computes builder tree value) :
      HoldsSegment builder ⟨.active memoryIndex offsetExpr, data⟩
        (.active memoryIndex tree (UInt32.ofNat data.length))

def Data.activeBytes (data : Data) : Bytes :=
  match data.kind with
  | .passive => []
  | .active _ _ => data.data

theorem datas_built (debugAssertions : Bool) (himports : builder.Imports wasm numFunctions)
    {memories : List IndexType} {datas : List Data}
    (hvalid : ∀ data ∈ datas, data.Valid (wasm.types numFunctions) memories) :
    ∃ segments, List.Forall₂ (HoldsSegment builder) datas segments ∧ ∀ before : DataSegments,
      datas.foldlM (DataSegments.pushDataSegment debugAssertions) before =
        .ok ⟨before.segments ++ segments, before.bytes ++ datas.flatMap Data.activeBytes⟩ := by
  induction datas with
  | nil => exact ⟨[], .nil, fun before => by simp only [List.flatMap_nil, List.append_nil]; rfl⟩
  | cons data rest ih =>
      obtain ⟨⟨hlength, hkind⟩, hrest⟩ := List.forall_mem_cons.mp hvalid
      obtain ⟨segments, hsegments, hfold⟩ := ih hrest
      obtain ⟨kind, data⟩ := data
      cases kind with
      | passive =>
          refine ⟨.passive data :: segments, .cons .passive hsegments, fun before => ?_⟩
          refine (hfold _).trans ?_
          rw [List.append_assoc]
          rfl
      | active memoryIndex offsetExpr =>
          obtain ⟨_, _, hcheck⟩ := hkind
          obtain ⟨tree, value, hnew, hexec, _, hcomputes⟩ := computes_of_valid debugAssertions himports hcheck
          refine ⟨_, .cons (.active hexec hcomputes) hsegments, fun before => ?_⟩
          have hpush : before.pushDataSegment debugAssertions ⟨.active memoryIndex offsetExpr, data⟩ =
              .ok ⟨before.segments ++ [.active memoryIndex tree (UInt32.ofNat data.length)],
                before.bytes ++ data⟩ :=
            bind_eq_ok.mpr ⟨tree, hnew, if_pos hlength⟩
          rw [List.foldlM_cons, hpush]
          refine (hfold _).trans ?_
          rw [List.append_assoc, List.append_assoc]
          rfl

theorem module_built (debugAssertions : Bool) {memories : List IndexType}
    (hvalid : wasm.Valid numFunctions memories) (himports : builder.Imports wasm numFunctions) :
    ∃ held segments, List.Forall₂ (HoldsGlobal debugAssertions builder) wasm.globals held ∧
      List.Forall₂ (HoldsSegment builder) wasm.datas segments ∧
      ModuleHeader.build debugAssertions wasm = .ok
        { globals := wasm.importedGlobals ++ wasm.globals.map Prod.fst
          lenImportedGlobals := wasm.importedGlobals.length
          globalsInit := held.map Prod.fst
          dataSegments := ⟨segments, wasm.datas.flatMap Data.activeBytes⟩ } := by
  obtain ⟨held, hheld, hglobals⟩ := globals_built debugAssertions himports hvalid.globals
  obtain ⟨segments, hsegments, hdatas⟩ := datas_built debugAssertions himports hvalid.datas
  refine ⟨held, segments, hheld, hsegments, ?_⟩
  exact bind_eq_ok.mpr ⟨_, hglobals, bind_eq_ok.mpr ⟨_, hdatas .empty, rfl⟩⟩

open InstanceEntityBuilder in
theorem extractGlobal_all {debugAssertions : Bool} {globals : List (GlobalType × List Operator)}
    {held : List (OpTree × Val)} (h : List.Forall₂ (HoldsGlobal debugAssertions builder) globals held)
    (hgrows : grown.Grows builder) :
    ((globals.map Prod.fst).zip (held.map Prod.fst)).foldlM extractGlobal grown =
      .ok { grown with globals := grown.globals ++ held.map Prod.snd } := by
  induction h generalizing grown with
  | nil =>
      simp only [List.map_nil, List.append_nil]
      rfl
  | @cons global held globals helds hfirst hrest ih =>
      have hstep : grown.extractGlobal (global.1, held.1) =
          .ok { grown with globals := grown.globals ++ [held.2] } := by
        have htyped := withType_toUntyped held.2
        rw [hfirst.ty] at htyped
        unfold extractGlobal
        rw [hfirst.computes.eval grown hgrows]
        change (withType _ _ >>= _) = _
        rw [htyped]
        rfl
      have hnext : Grows { grown with globals := grown.globals ++ [held.2] } builder :=
        ⟨hgrows.1, hgrows.2.trans (List.prefix_append _ _)⟩
      rw [List.map_cons, List.map_cons, List.zip_cons_cons, List.foldlM_cons, hstep]
      change List.foldlM _ _ _ = _
      rw [ih hnext, List.map_cons, List.append_assoc]
      rfl

theorem extractGlobals_held {debugAssertions : Bool} {held : List (OpTree × Val)} {header : ModuleHeader}
    (hheld : List.Forall₂ (HoldsGlobal debugAssertions builder) wasm.globals held)
    (hglobals : header.globals = wasm.importedGlobals ++ wasm.globals.map Prod.fst)
    (hlen : header.lenImportedGlobals = wasm.importedGlobals.length)
    (hinit : header.globalsInit = held.map Prod.fst) :
    builder.extractGlobals header = .ok { builder with globals := builder.globals ++ held.map Prod.snd } := by
  unfold InstanceEntityBuilder.extractGlobals
  rw [hglobals, hlen, hinit, List.drop_left]
  exact extractGlobal_all hheld InstanceEntityBuilder.grows_refl

-- The value of a global that a translated access gives.
def GlobalGet.value (instance_ : InstanceEntityBuilder M) : GlobalGet → Option Val
  | .immediate value => some value
  | .refFunc functionIndex => (instance_.context.getFunc functionIndex).map .funcRef
  | .instr globalIndex => instance_.context.getGlobal globalIndex

theorem getElem?_of_forall₂ {α β : Type} {related : α → β → Prop} {xs : List α} {ys : List β}
    (h : List.Forall₂ related xs ys) {i : Nat} {y : β} (hy : ys[i]? = some y) :
    ∃ x, xs[i]? = some x ∧ related x y := by
  obtain ⟨hlength, hall⟩ := List.forall₂_iff_get.mp h
  obtain ⟨hi, rfl⟩ := List.getElem?_eq_some_iff.mp hy
  exact ⟨xs[i], List.getElem?_eq_getElem _, hall i (hlength ▸ hi) hi⟩

-- What an access to a global is translated to gives what the instance holds.
theorem visitGlobalGet_value {debugAssertions : Bool} {held : List (OpTree × Val)} {header : ModuleHeader}
    (himports : builder.Imports wasm numFunctions)
    (hheld : List.Forall₂ (HoldsGlobal debugAssertions builder) wasm.globals held)
    (hglobals : header.globals = wasm.importedGlobals ++ wasm.globals.map Prod.fst)
    (hlen : header.lenImportedGlobals = wasm.importedGlobals.length)
    (hinit : header.globalsInit = held.map Prod.fst) (hgrows : grown.Grows builder)
    (hgrown : grown.globals = builder.globals ++ held.map Prod.snd) {index : UInt32} {value : Val}
    (hvalue : grown.globals[index.toNat]? = some value) :
    ∃ access, visitGlobalGet header index = .ok access ∧ access.value grown = some value := by
  have hlength : builder.globals.length = wasm.importedGlobals.length := by
    simpa using congrArg List.length himports.globals
  have hinstr : (GlobalGet.instr index).value grown = some value := hvalue
  by_cases himported : index.toNat < wasm.importedGlobals.length
  · refine ⟨.instr index, bind_eq_ok.mpr ⟨(wasm.importedGlobals[index.toNat], none), ?_, ?_⟩, hinstr⟩
    · unfold ModuleHeader.getGlobal
      rw [hglobals, hlen, List.getElem?_append_left himported, List.getElem?_eq_getElem himported]
      exact if_pos himported
    · obtain ⟨content, mutability⟩ := wasm.importedGlobals[index.toNat]
      cases mutability <;> rfl
  · have hle := Nat.le_of_not_lt himported
    rw [hgrown, List.getElem?_append_right (hlength ▸ hle), hlength, List.getElem?_map] at hvalue
    obtain ⟨⟨tree, value⟩, hpair, rfl⟩ := Option.map_eq_some_iff.mp hvalue
    obtain ⟨⟨⟨content, mutability⟩, body⟩, hglobal, hholds⟩ := getElem?_of_forall₂ hheld hpair
    have hget : header.getGlobal index = .ok (⟨content, mutability⟩, some tree) := by
      unfold ModuleHeader.getGlobal
      rw [hglobals, hlen, hinit, List.getElem?_append_right hle, List.getElem?_map, hglobal, List.getElem?_map,
        hpair]
      exact if_neg himported
    obtain ⟨access, haccess, hgives⟩ : ∃ access,
        GlobalGet.of index (⟨content, mutability⟩, some tree) = .ok access ∧ access.value grown = some value := by
      cases mutability with
      | var => exact ⟨_, rfl, hinstr⟩
      | const =>
          unfold GlobalGet.of
          dsimp only
          split
          next untyped hconst =>
            obtain rfl := hholds.computes.const untyped hconst
            obtain rfl : value.ty = content := hholds.ty
            rw [withType_toUntyped]
            exact ⟨_, rfl, rfl⟩
          next =>
            split
            next function href =>
              obtain ⟨func, hfunc, rfl⟩ := hholds.computes.funcref function href
              refine ⟨_, rfl, ?_⟩
              exact Option.map_eq_some_iff.mpr ⟨func, hgrows.extends.getFunc function func hfunc, rfl⟩
            next => exact ⟨_, rfl, hinstr⟩
    exact ⟨access, bind_eq_ok.mpr ⟨_, hget, haccess⟩, hgives⟩

-- A valid module is built, and its instance given its globals, with no panic: each holds what its
-- code computes of the imports, and an access to any global gives what that holds, also where it
-- has been translated to a constant or a function reference.
theorem globals_hold (debugAssertions : Bool) {memories : List IndexType}
    (hvalid : wasm.Valid numFunctions memories) (himports : builder.Imports wasm numFunctions) :
    ∃ header values, ModuleHeader.build debugAssertions wasm = .ok header ∧
      builder.extractGlobals header = .ok { builder with globals := builder.globals ++ values } ∧
      List.Forall₂ (fun global value => execAll builder.context [] global.2 = some value ∧
        value.ty = global.1.content) wasm.globals values ∧
      ∀ (index : UInt32) value, (builder.globals ++ values)[index.toNat]? = some value →
        ∃ access, visitGlobalGet header index = .ok access ∧
          access.value { builder with globals := builder.globals ++ values } = some value := by
  obtain ⟨held, segments, hheld, _, hbuild⟩ := module_built debugAssertions hvalid himports
  refine ⟨_, held.map Prod.snd, hbuild, extractGlobals_held hheld rfl rfl rfl, ?_, fun index value hvalue => ?_⟩
  · exact List.forall₂_map_right_iff.mpr (hheld.imp fun _ _ h => ⟨h.exec, h.ty⟩)
  · have hgrows : InstanceEntityBuilder.Grows { builder with globals := builder.globals ++ held.map Prod.snd }
        builder := ⟨rfl, List.prefix_append _ _⟩
    exact visitGlobalGet_value himports hheld rfl rfl rfl hgrows rfl hvalue

-- Three globals behind an imported number: a number computed of it, a variable and a function.
def someGlobals : WasmModule where
  importedGlobals := [⟨.i32, .const⟩]
  globals := [(⟨.i32, .const⟩, twiceAndTwo), (⟨.i64, .var⟩, [.i64Const 1, .endExpr]),
    (⟨.funcRef, .const⟩, [.refFunc 0, .endExpr])]
  datas := []

def twenty : InstanceEntityBuilder 1 where
  memories := []
  globals := [.i32 20]
  funcs := [⟨5, by decide⟩]
  dataSegments := []

theorem globals_hold_someGlobals : ∃ header grown, ModuleHeader.build true someGlobals = .ok header ∧
    twenty.extractGlobals header = .ok grown ∧
    grown.globals = [.i32 20, .i32 42, .i64 1, .funcRef (.val ⟨5, by decide⟩)] ∧
    ∃ access, visitGlobalGet header 3 = .ok access ∧ access.value grown = some (.funcRef (.val ⟨5, by decide⟩)) := by
  have hvalid : someGlobals.Valid 1 [] :=
    { globals := by decide
      datas := fun _ hmem => nomatch hmem }
  have himports : twenty.Imports someGlobals 1 := ⟨rfl, rfl⟩
  obtain ⟨header, values, hbuild, hextract, hvalues, haccess⟩ := globals_hold true hvalid himports
  obtain ⟨number, _, ⟨hnumber, _⟩, htail, rfl⟩ := List.forall₂_cons_left_iff.mp hvalues
  obtain ⟨variable_, _, ⟨hvariable, _⟩, hlast, rfl⟩ := List.forall₂_cons_left_iff.mp htail
  obtain ⟨function, _, ⟨hfunction, _⟩, hnil, rfl⟩ := List.forall₂_cons_left_iff.mp hlast
  obtain rfl := List.forall₂_nil_left_iff.mp hnil
  obtain rfl : Val.i32 42 = number := Option.some.inj hnumber
  obtain rfl : Val.i64 1 = variable_ := Option.some.inj hvariable
  obtain rfl : Val.funcRef (.val ⟨5, by decide⟩) = function := Option.some.inj hfunction
  exact ⟨header, _, hbuild, hextract, rfl, haccess 3 _ rfl⟩

end Values

end Milo.Runtime.Wasmi

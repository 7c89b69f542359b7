import Milo.Runtime.Wasmi.Instantiate.Globals
import Milo.Runtime.Wasmi.Instrs.Reference

-- The data segments of an instance are initialised as WebAssembly defines it: each active one by a
-- memory.init and a data.drop, in order.
namespace Milo.Runtime.Wasmi

open Milo.Lib Milo.Rust

variable {arch : Arch} {m d M : Nat}

-- The instructions of a segment. Its offset has a value and its memory is there when it is valid.
def Data.ops (ctx : EvalContext) (index : Fin d) (data : Data) : List (Op m d) :=
  match data.kind with
  | .passive => []
  | .active memoryIndex offsetExpr =>
      match execAll ctx [] offsetExpr with
      | none => []
      | some offset =>
          if h : memoryIndex.toNat < m then
            [.memoryInit ⟨memoryIndex.toNat, h⟩ index offset.toUntyped 0 (UInt32.ofNat data.data.length),
              .dataDrop index]
          else []

theorem Memory.write_cases (memory : Memory arch) (offset : Nat) (bytes : Bytes) :
    (offset + bytes.length ≤ memory.data.length ∧ ∃ written : Memory arch, memory.write offset bytes = .ok written ∧
        written.data = overwrite memory.data offset bytes) ∨
      (memory.data.length < offset + bytes.length ∧ memory.write offset bytes = .error .outOfBoundsAccess) := by
  have hfits := memory.data_lt
  unfold Memory.write accessSpan
  by_cases hle : offset + bytes.length ≤ memory.data.length
  · rw [if_pos (by omega)]
    dsimp only
    rw [dif_pos hle]
    exact .inl ⟨hle, _, rfl, rfl⟩
  · refine .inr ⟨by omega, ?_⟩
    split
    next => rfl
    next hspan =>
      split_ifs at hspan
      cases hspan
      exact dif_neg hle

-- A segment is written where it fits.
theorem writeSegment_cases (memories : Fin M → Memory arch) (builder : InstanceEntityBuilder M) (memory : Fin M)
    (offset : UntypedVal) (bytes : Bytes) :
    (offset.toNat + bytes.length ≤ (memories memory).data.length ∧ ∃ written : Memory arch,
        written.data = overwrite (memories memory).data offset.toNat bytes ∧
        writeSegment memories builder memory offset bytes =
          .push (Function.update memories memory written) builder none) ∨
      ((memories memory).data.length < offset.toNat + bytes.length ∧
        writeSegment memories builder memory offset bytes = ⟨.error .outOfBoundsAccess, memories, builder⟩) := by
  have hfits := (memories memory).data_lt
  unfold writeSegment Arch.tryUsize
  rcases (memories memory).write_cases offset.toNat bytes with ⟨hle, written, hwrite, hwritten⟩ | ⟨hlt, hwrite⟩
  · rw [if_pos (by omega)]
    simp only [hwrite]
    exact .inl ⟨hle, written, hwritten, rfl⟩
  · refine .inr ⟨hlt, ?_⟩
    split_ifs
    · simp only [hwrite]
    · rfl

-- The bytes of the memories of a store.
def datasOf (memories : Fin M → Memory arch) (entity : Fin M) : Bytes := (memories entity).data

-- How the initialisation ends that the reference has followed up to there.
inductive Fitted (module : Instance m d M d) (linear : Linear M d) :
    List (Op m d) → Except MemoryError Unit → Prop where
  | all : Fitted module linear [] (.ok ())
  | stopped {op : Op m d} {rest : List (Op m d)} (h : ¬op.InBounds module linear) :
      Fitted module linear (op :: rest) (.error .outOfBoundsAccess)

-- The instance that the instructions run in.
def InstanceEntityBuilder.module (builder : InstanceEntityBuilder M) (d : Nat) :
    Instance builder.memories.length d M d where
  memories := builder.memories.get
  datas := id

-- What a module's segments are initialised by, of the globals and functions that it imports.
def WasmModule.dataOps (wasm : WasmModule) (builder : InstanceEntityBuilder M) :
    List (Op builder.memories.length wasm.datas.length) :=
  (List.finRange wasm.datas.length).flatMap fun index => (wasm.datas.get index).ops builder.context index

def WasmModule.linear (wasm : WasmModule) (memories : Fin M → Memory arch) : Linear M wasm.datas.length where
  memories := datasOf memories
  datas index := (wasm.datas.get index).data

section Follows

variable {builder grown : InstanceEntityBuilder M} {memories : Fin M → Memory arch} {linear : Linear M d}
  {types : Fin M → MemoryType}

-- The first instruction of an active segment, with the operands that the code gives it.
theorem initializeSegment_active {memoryIndex : UInt32} (hmemory : memoryIndex.toNat < grown.memories.length)
    {tree : OpTree} {value : Val} (heval : grown.evalInitExpr tree = .ok value.toUntyped) {data : Bytes}
    (hdata : data.length < 2 ^ 32) {index : Fin d} (hlinear : linear.memories = datasOf memories)
    (hindex : linear.datas index = data) {init : Op grown.memories.length d}
    (hinit : init = .memoryInit ⟨memoryIndex.toNat, hmemory⟩ index value.toUntyped 0 (UInt32.ofNat data.length)) :
    (¬init.InBounds (grown.module d) linear ∧ initializeSegment memories grown (.active memoryIndex tree data) =
        .ok ⟨.error .outOfBoundsAccess, memories, grown⟩) ∨
      ∃ memories' : Fin M → Memory arch, ∃ linear',
        initializeSegment memories grown (.active memoryIndex tree data) = .ok (.push memories' grown none) ∧
        Steps (grown.module d) types linear [init, .dataDrop index] [.unit, .unit] linear' ∧
        linear'.memories = datasOf memories' ∧ linear'.datas = Function.update linear.datas index [] := by
  subst hinit
  have hlength : (UInt32.ofNat data.length).toNat = data.length := UInt32.toNat_ofNat_of_lt' hdata
  have hbounds : (Op.memoryInit ⟨memoryIndex.toNat, hmemory⟩ index value.toUntyped 0
      (UInt32.ofNat data.length)).InBounds (grown.module d) linear ↔
        value.toUntyped.toNat + data.length ≤ (memories grown.memories[memoryIndex.toNat]).data.length := by
    show _ + _ ≤ (linear.memories _).length ∧ 0 + _ ≤ (linear.datas index).length ↔ _
    rw [hlinear, hindex, hlength, Nat.zero_add]
    exact ⟨And.left, fun h => ⟨h, Nat.le_refl _⟩⟩
  have hsegment : initializeSegment memories grown (.active memoryIndex tree data) =
      .ok (writeSegment memories grown grown.memories[memoryIndex.toNat] value.toUntyped data) := by
    simp only [initializeSegment, List.getElem?_eq_getElem hmemory, heval]
    rfl
  rw [hsegment, hbounds]
  rcases writeSegment_cases memories grown grown.memories[memoryIndex.toNat] value.toUntyped data with
    ⟨hle, written, hwritten, hwrite⟩ | ⟨hlt, hwrite⟩
  · right
    rw [hwrite]
    have hput : putAll (linear.memory (grown.module d) ⟨memoryIndex.toNat, hmemory⟩) value.toUntyped.toNat
        (linear.data (grown.module d) index) 0 (UInt32.ofNat data.length).toNat = some written.data := by
      rw [hwritten, hlength]
      show putAll (linear.memories _) _ (linear.datas index) 0 _ = _
      rw [hlinear, hindex]
      refine putAll_eq hle ?_
      rw [window_of_le (by omega), List.drop_zero, List.take_length]
    refine ⟨_, _, rfl, .cons (.exec (hbounds.mpr hle) (.init hput)) (.cons (.exec trivial .drop) .nil), ?_, rfl⟩
    funext entity
    show Function.update linear.memories grown.memories[memoryIndex.toNat] written.data entity =
      (Function.update memories grown.memories[memoryIndex.toNat] written entity).data
    rw [hlinear, Function.update_apply, Function.update_apply]
    split_ifs
    · rfl
    · rfl
  · rw [hwrite]
    exact .inl ⟨Nat.not_le.mpr hlt, rfl⟩

-- What is left of a run over some of the segments, of which each comes once.
structure Followed (module : Instance m d M d) (types : Fin M → MemoryType) (linear : Linear M d)
    (before : InstanceEntityBuilder M) (indices : List (Fin d)) (ops : List (Op m d))
    (done : Initialized arch M) (ran left : List (Op m d)) (linear' : Linear M d) : Prop where
  ops : ops = ran ++ left
  steps : Steps module types linear ran (List.replicate ran.length .unit) linear'
  memories : linear'.memories = datasOf done.memories
  fitted : Fitted module linear' left done.result
  others : ∀ index ∉ indices, linear'.datas index = linear.datas index
  segments : done.result = .ok () → ∃ added : List (Option Bytes),
    done.builder = { before with dataSegments := before.dataSegments ++ added } ∧
      added.map (·.getD []) = indices.map linear'.datas

theorem Steps.append {module : Instance m d M d} {linear' linear'' : Linear M d} {ops ops' : List (Op m d)}
    {replies replies' : List Reply} (first : Steps module types linear ops replies linear')
    (rest : Steps module types linear' ops' replies' linear'') :
    Steps module types linear (ops ++ ops') (replies ++ replies') linear'' := by
  induction first with
  | nil => exact rest
  | cons step _ ih => exact .cons step (ih rest)

theorem next_active {memoryIndex : UInt32} {tree : OpTree} {data bytes : Bytes} (hlength : data.length < 2 ^ 32) :
    InitDataSegment.next (data ++ bytes) (.active memoryIndex tree (UInt32.ofNat data.length)) =
      .ok (.active memoryIndex tree data, bytes) := by
  have hlen : (UInt32.ofNat data.length).toNat = data.length := UInt32.toNat_ofNat_of_lt' hlength
  simp only [InitDataSegment.next, hlen, List.take_left, List.drop_left, List.length_append]
  exact if_pos (Nat.le_add_right _ _)

theorem initializeMemoryData_followed {datas : Fin d → Data} {indices : List (Fin d)} {segments : List DataSegment}
    (hnodup : indices.Nodup) (hlength : ∀ index ∈ indices, (datas index).data.length < 2 ^ 32)
    (hmemories : ∀ index ∈ indices, ∀ memoryIndex offsetExpr, (datas index).kind = .active memoryIndex offsetExpr →
      memoryIndex.toNat < grown.memories.length)
    (hsegments : List.Forall₂ (HoldsSegment builder) (indices.map datas) segments) (hgrows : grown.Grows builder)
    (hlinear : linear.memories = datasOf memories)
    (hdatas : ∀ index ∈ indices, linear.datas index = (datas index).data) :
    ∃ done ran left linear',
      initializeMemoryData memories grown ((indices.map datas).flatMap Data.activeBytes) segments = .ok done ∧
      Followed (grown.module d) types linear grown indices
        (indices.flatMap fun index => (datas index).ops builder.context index) done ran left linear' := by
  induction indices generalizing grown memories linear segments with
  | nil =>
      cases hsegments
      exact ⟨_, [], [], linear, rfl, ⟨rfl, .nil, hlinear, .all, fun _ _ => rfl, fun _ => ⟨[], by simp, rfl⟩⟩⟩
  | cons index rest ih =>
      obtain ⟨hindex, hnodup⟩ := List.nodup_cons.mp hnodup
      obtain ⟨hfirstLength, hlength⟩ := List.forall_mem_cons.mp hlength
      obtain ⟨hfirstMemory, hmemories⟩ := List.forall_mem_cons.mp hmemories
      obtain ⟨hfirstData, hdatas⟩ := List.forall_mem_cons.mp hdatas
      rw [List.map_cons] at hsegments
      rw [List.map_cons, List.flatMap_cons, List.flatMap_cons]
      generalize datas index = data at hsegments hfirstLength hfirstMemory hfirstData ⊢
      obtain ⟨segment, segments, hfirst, hrest, rfl⟩ := List.forall₂_cons_left_iff.mp hsegments
      cases hfirst with
      | @passive data =>
          obtain ⟨done, ran, left, linear', hdone, hfollowed⟩ :=
            @ih { grown with dataSegments := grown.dataSegments ++ [some data] } memories linear segments
              hnodup hlength hmemories hrest hgrows hlinear hdatas
          refine ⟨done, ran, left, linear', hdone, hfollowed.ops, hfollowed.steps, hfollowed.memories,
            hfollowed.fitted, fun other hother => hfollowed.others other (hother ∘ List.mem_cons_of_mem _),
            fun hok => ?_⟩
          obtain ⟨added, hbuilder, hadded⟩ := hfollowed.segments hok
          refine ⟨some data :: added, ?_, ?_⟩
          · rw [hbuilder]
            simp only [List.append_assoc, List.singleton_append]
          · rw [List.map_cons, List.map_cons, hadded, hfollowed.others index hindex, hfirstData]
            rfl
      | @active memoryIndex offsetExpr data tree value hexec hcomputes =>
          have hmemory := hfirstMemory memoryIndex offsetExpr rfl
          have hops : Data.ops builder.context index ⟨.active memoryIndex offsetExpr, data⟩ =
              [.memoryInit ⟨memoryIndex.toNat, hmemory⟩ index value.toUntyped 0 (UInt32.ofNat data.length),
                .dataDrop index] := by
            simp only [Data.ops, hexec]
            exact dif_pos hmemory
          rw [hops]
          rcases initializeSegment_active hmemory (hcomputes.eval grown hgrows) hfirstLength hlinear hfirstData rfl with
            ⟨hbounds, hstopped⟩ | ⟨memories', between, hpushed, hsteps, hbetween, hdropped⟩
          · exact ⟨_, [], _, linear, bind_eq_ok.mpr ⟨_, next_active hfirstLength, bind_eq_ok.mpr ⟨_, hstopped, rfl⟩⟩,
              ⟨rfl, .nil, hlinear, .stopped hbounds, fun _ _ => rfl, (nomatch ·)⟩⟩
          · have hdatas' : ∀ other ∈ rest, between.datas other = (datas other).data := fun other hother => by
              rw [hdropped, Function.update_of_ne (ne_of_mem_of_not_mem hother hindex)]
              exact hdatas other hother
            obtain ⟨done, ran, left, linear', hdone, hfollowed⟩ :=
              @ih { grown with dataSegments := grown.dataSegments ++ [none] } memories' between segments
                hnodup hlength hmemories hrest hgrows hbetween hdatas'
            refine ⟨done, _ :: _ :: ran, left, linear',
              bind_eq_ok.mpr ⟨_, next_active hfirstLength, bind_eq_ok.mpr ⟨_, hpushed, hdone⟩⟩,
              congrArg _ hfollowed.ops, hsteps.append hfollowed.steps, hfollowed.memories, hfollowed.fitted,
              fun other hother => ?_, fun hok => ?_⟩
            · rw [hfollowed.others other (hother ∘ List.mem_cons_of_mem _), hdropped,
                Function.update_of_ne (List.ne_of_not_mem_cons hother)]
            · obtain ⟨added, hbuilder, hadded⟩ := hfollowed.segments hok
              refine ⟨none :: added, ?_, ?_⟩
              · rw [hbuilder]
                simp only [List.append_assoc, List.singleton_append]
              · rw [List.map_cons, List.map_cons, hadded, hfollowed.others index hindex, hdropped,
                  Function.update_self]
                rfl

-- A valid module is built and its memories and segments are initialised with no panic, as the
-- reference runs their instructions: up to the end, or to the first that is out of bounds there.
theorem data_initialized {wasm : WasmModule} {numFunctions : Nat} {indexTypes : List IndexType}
    (debugAssertions : Bool) (hvalid : wasm.Valid numFunctions indexTypes)
    (himports : builder.Imports wasm numFunctions) (hlength : builder.memories.length = indexTypes.length)
    (memories : Fin M → Memory arch) :
    ∃ header grown done ran left linear, ModuleHeader.build debugAssertions wasm = .ok header ∧
      builder.extractGlobals header = .ok grown ∧
      initializeMemoryData memories grown header.dataSegments.bytes header.dataSegments.segments = .ok done ∧
      Followed (builder.module _) (fun entity => (memories entity).ty) (wasm.linear memories) grown
        (List.finRange _) (wasm.dataOps builder) done ran left linear := by
  obtain ⟨held, segments, hheld, hsegments, hbuild⟩ := module_built debugAssertions hvalid himports
  have hdatas : (List.finRange wasm.datas.length).map wasm.datas.get = wasm.datas := List.map_get_finRange _
  have hget : ∀ index, wasm.datas.get index ∈ wasm.datas := fun index => List.get_mem _ index
  obtain ⟨done, ran, left, linear, hdone, hfollowed⟩ :=
    @initializeMemoryData_followed arch _ M builder { builder with globals := builder.globals ++ held.map Prod.snd }
      memories (wasm.linear memories) (fun entity => (memories entity).ty) wasm.datas.get
      (List.finRange wasm.datas.length) segments (List.nodup_finRange _)
      (fun index _ => (hvalid.datas _ (hget index)).1)
      (fun index _ memoryIndex offsetExpr hkind => by
        have hsegment := (hvalid.datas _ (hget index)).2
        rw [hkind] at hsegment
        obtain ⟨_, hindexType, _⟩ := hsegment
        show memoryIndex.toNat < builder.memories.length
        rw [hlength]
        exact (List.getElem?_eq_some_iff.mp hindexType).1)
      (hdatas.symm ▸ hsegments) ⟨rfl, List.prefix_append _ _⟩ rfl (fun _ _ => rfl)
  rw [hdatas] at hdone
  exact ⟨_, _, done, ran, left, linear, hbuild, extractGlobals_held hheld rfl rfl rfl, hdone, hfollowed⟩

-- A segment at an imported address, one that is passive and one that does not fit.
def someDatas : WasmModule where
  importedGlobals := [⟨.i32, .const⟩]
  globals := []
  datas := [⟨.active 0 [.globalGet 0, .endExpr], [7, 8]⟩, ⟨.passive, [9]⟩, ⟨.active 0 [.i32Const 30, .endExpr], [5]⟩]

def twentyAndMemory : InstanceEntityBuilder 1 := { twenty with memories := [⟨0, Nat.zero_lt_one⟩] }

theorem data_initialized_someDatas :
    ∃ header grown done, ∃ ran left : List (Op 1 3), ∃ linear, ModuleHeader.build true someDatas = .ok header ∧
      twentyAndMemory.extractGlobals header = .ok grown ∧
      initializeMemoryData (fun _ => Memory.blank arch32 ⟨sixBytes, sixBytes_valid⟩) grown
        header.dataSegments.bytes header.dataSegments.segments = .ok done ∧
      ran ++ left = [.memoryInit 0 0 20 0 2, .dataDrop 0, .memoryInit 0 2 30 0 1, .dataDrop 2] ∧
      Fitted (twentyAndMemory.module 3) linear left done.result := by
  have hvalid : someDatas.Valid 1 [.i32] :=
    { globals := fun _ hmem => nomatch hmem
      datas := List.forall_mem_cons.mpr ⟨⟨by decide, .i32, rfl, by decide⟩, List.forall_mem_cons.mpr
        ⟨⟨by decide, trivial⟩, List.forall_mem_singleton.mpr ⟨by decide, .i32, rfl, by decide⟩⟩⟩ }
  have himports : twentyAndMemory.Imports someDatas 1 := ⟨rfl, rfl⟩
  obtain ⟨header, grown, done, ran, left, linear, hbuild, hextract, hdone, hfollowed⟩ :=
    data_initialized true hvalid himports rfl fun _ => Memory.blank arch32 ⟨sixBytes, sixBytes_valid⟩
  exact ⟨header, grown, done, ran, left, linear, hbuild, hextract, hdone, hfollowed.ops.symm, hfollowed.fitted⟩

end Follows

end Milo.Runtime.Wasmi

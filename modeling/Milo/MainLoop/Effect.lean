import Milo.MainLoop.Ledger

namespace Milo.Engine.Executor

theorem getParam_initial (slot : UInt32) : getParam .initial slot = 0 := by
  unfold getParam
  split
  · exact Vector.getElem_replicate _
  · rfl

theorem getParam_setParam (slots : ParamSlots) (slot value asked : UInt32) :
    getParam (setParam slots slot value) asked =
      if slot = asked ∧ asked.toNat < PARAM_SLOT_COUNT then value else getParam slots asked := by
  unfold setParam getParam
  by_cases hasked : asked.toNat < PARAM_SLOT_COUNT
  · by_cases hslot : slot.toNat < PARAM_SLOT_COUNT
    · simp only [dif_pos hslot, Vector.getElem_set, UInt32.toNat_inj, hasked, and_true, dite_true]
    · have hne : slot ≠ asked := by rintro rfl; exact hslot hasked
      rw [dif_neg hslot, if_neg fun h => hne h.1, dif_pos hasked]
  · rw [dif_neg hasked, if_neg fun h => hasked h.2, dif_neg hasked]

namespace ThreadedExecutor

variable {H W : Type}

-- Between two calls only the time of a worker passes.
theorem elapse_iterate (e : ThreadedExecutor H W) (k : Nat) :
    elapse^[k] e = { e with
      handle := e.handle.map fun worker => { worker with remaining := worker.remaining - k } } := by
  induction k with
  | zero => cases hh : e.handle <;> simp [← hh]
  | succ k ih =>
      rw [Function.iterate_succ_apply', ih]
      cases hh : e.handle <;> simp [elapse, Nat.sub_sub]

end ThreadedExecutor

end Milo.Engine.Executor

namespace Milo.MainLoop

open Milo.Rust Milo.Engine.Link Milo.Engine.Executor Milo.Transport

-- The slot and the value of a set-param frame with both of them in it.
def paramOf (frame : Frame) : Option (UInt32 × UInt32) :=
  if frame.opcode = OP_SET_PARAM then
    match frame.payload with
    | b0 :: b1 :: b2 :: b3 :: b4 :: b5 :: b6 :: b7 :: _ =>
        some (UInt32.ofNat (fromBeBytes b0 b1 b2 b3), UInt32.ofNat (fromBeBytes b4 b5 b6 b7))
    | _ => none
  else none

-- The value of the last set-param frame that named the slot.
def lastParam (frames : List Frame) (slot : UInt32) : UInt32 :=
  match (frames.filterMap paramOf).reverse.find? fun named => named.1 = slot with
  | some named => named.2
  | none => 0

theorem lastParam_append (frames : List Frame) (frame : Frame) (slot : UInt32) :
    lastParam (frames ++ [frame]) slot =
      match paramOf frame with
      | some named => if named.1 = slot then named.2 else lastParam frames slot
      | none => lastParam frames slot := by
  unfold lastParam
  rw [List.filterMap_append, List.reverse_append]
  cases hp : paramOf frame with
  | none => simp [hp]
  | some named =>
      simp only [hp, List.filterMap_cons, List.filterMap_nil, List.reverse_singleton,
        List.singleton_append, List.find?_cons]
      by_cases hslot : named.1 = slot <;> simp [hslot]

theorem Request.ofOpcode_eq_setParam {opcode : UInt8} :
    Request.ofOpcode opcode = .setParam ↔ opcode = OP_SET_PARAM := by
  constructor
  · intro h
    unfold Request.ofOpcode at h
    split_ifs at h with _ _ _ _ _ hop
    exact hop
  · rintro rfl
    rfl

namespace Board

variable {T E H : Type} (board : Board T E H)

-- A frame whose handling is no business of the executor.
structure Passive (frame : Frame) : Prop where
  notStop : Request.ofOpcode frame.opcode ≠ .stop
  notAccepted : ∀ signed wasm, (Request.ofOpcode frame.opcode).loads = some signed →
    board.authorizeModule frame.payload signed ≠ .ok (.ok wasm)

variable {board} {s s' : Receiver T E} {frame : Frame}

theorem Handled.exec_of_passive (hs : board.Handled s frame s') (h : board.Passive frame) :
    ∃ k ≤ 2, s'.exec = board.executor.elapse^[k] s.exec := by
  cases hs with
  | discovery _ => exact ⟨0, by decide, rfl⟩
  | refused _ _ _ _ => exact ⟨0, by decide, rfl⟩
  | pushed signed wasm hreq hauth =>
      exact absurd hauth (h.notAccepted signed wasm (by rw [hreq]; rfl))
  | swapped signed wasm hreq hauth =>
      exact absurd hauth (h.notAccepted signed wasm (by rw [hreq]; rfl))
  | stopped hreq => exact absurd hreq h.notStop
  | queried _ => exact ⟨2, by decide, rfl⟩
  | param _ =>
      refine ⟨0, by decide, ?_⟩
      unfold setParam
      split <;> rfl
  | unknown _ => exact ⟨0, by decide, rfl⟩

theorem report_params : (board.report s).params = s.params := by
  unfold report
  split <;> rfl

theorem Handled.params_eq (hs : board.Handled s frame s')
    (h : Request.ofOpcode frame.opcode ≠ .setParam) : s'.params = s.params := by
  cases hs with
  | pushed _ _ _ _ => exact report_params
  | swapped _ _ _ _ => exact report_params
  | param hreq => exact absurd hreq h
  | discovery _ => rfl
  | refused _ _ _ _ => rfl
  | stopped _ => rfl
  | queried _ => rfl
  | unknown _ => rfl

theorem Handled.params_setParam (hs : board.Handled s frame s')
    (h : Request.ofOpcode frame.opcode = .setParam) : s' = setParam s frame.payload := by
  cases hs with
  | param _ => rfl
  | discovery hreq => rw [h] at hreq; cases hreq
  | refused _ _ hloads _ => rw [h] at hloads; cases hloads
  | pushed _ _ hreq _ => rw [h] at hreq; cases hreq
  | swapped _ _ hreq _ => rw [h] at hreq; cases hreq
  | stopped hreq => rw [h] at hreq; cases hreq
  | queried hreq => rw [h] at hreq; cases hreq
  | unknown hreq => rw [h] at hreq; cases hreq

theorem Handled.getParam_eq (hs : board.Handled s frame s') (slot : UInt32) :
    getParam s'.params slot =
      match paramOf frame with
      | some (name, value) =>
          if name = slot ∧ slot.toNat < PARAM_SLOT_COUNT then value else getParam s.params slot
      | none => getParam s.params slot := by
  by_cases hop : frame.opcode = OP_SET_PARAM
  · rw [hs.params_setParam (Request.ofOpcode_eq_setParam.mpr hop)]
    unfold setParam paramOf
    rw [if_pos hop]
    match frame.payload with
    | b0 :: b1 :: b2 :: b3 :: b4 :: b5 :: b6 :: b7 :: _ => exact getParam_setParam ..
    | [] | [_] | [_, _] | [_, _, _] | [_, _, _, _] | [_, _, _, _, _] | [_, _, _, _, _, _]
    | [_, _, _, _, _, _, _] => rfl
  · have hnone : paramOf frame = none := if_neg hop
    rw [hs.params_eq (mt Request.ofOpcode_eq_setParam.mp hop), hnone]

-- The parameters hold what the frames received so far have set.
def HoldsParams (s : Receiver T E) : Prop :=
  ∀ slot : UInt32, getParam s.params slot =
    if slot.toNat < PARAM_SLOT_COUNT then lastParam (receivedFrames s.log) slot else 0

theorem HoldsParams.stepped (hs : board.Stepped s s') (h : HoldsParams s) : HoldsParams s' := by
  intro slot
  cases hs with
  | ended fault => exact h slot
  | idle e t _ _ =>
      rw [report_params, report_receivedFrames, receive_receivedFrames, Except.toOption,
        Option.toList_none, List.append_nil]
      exact h slot
  | handled frame t s' _ _ hs =>
      rw [hs.getParam_eq, hs.receivedFrames_eq, receive_receivedFrames, Except.toOption,
        Option.toList_some, lastParam_append]
      have hslot : getParam (receive s t (.ok frame)).params slot = _ := h slot
      cases paramOf frame with
      | none => exact hslot
      | some named =>
          by_cases hname : named.1 = slot
          · by_cases hlt : slot.toNat < PARAM_SLOT_COUNT
            · simp [hname, hlt]
            · simp [hlt, hslot]
          · simpa [hname] using hslot

theorem holdsParams_run (t : T) (exec : E) (n : Nat) : HoldsParams (board.run (.start t exec) n) := by
  refine board.run_induction (motive := HoldsParams) (fun slot => ?_) (fun _ _ hs h => h.stepped hs) n
  refine (getParam_initial slot).trans ?_
  split <;> rfl

-- The dispatch of the next frame, when there is one.
theorem step_of_frame {t : T} (hf : s.fault = none)
    (hr : board.transport.readFrame s.transport = (.ok (.ok frame), t)) :
    board.Handled (receive s t (.ok frame)) frame (board.step s) ∨
      ∃ fault, board.step s = { s with fault := some fault } := by
  cases hd : board.dispatch (receive s t (.ok frame)) frame with
  | ok next =>
      left
      have hstep : board.step s = next := by simp only [step, hf, loopBody, hr, hd]
      exact hstep ▸ board.dispatch_handled hd
  | error fault => exact .inr ⟨fault, by simp only [step, hf, loopBody, hr, hd]⟩

-- Any executor, policy and transport: a frame that stops nothing and loads nothing
-- leaves the executor as time does, which for a threaded one is all but the time its
-- worker has left. Only set-param frames write the parameters.
theorem frame_effect {T E H : Type} (board : Board T E H) (t : T) (exec : E) (n : Nat) :
    let s := board.run (.start t exec) n
    (∀ frame t', s.fault = none → board.transport.readFrame s.transport = (.ok (.ok frame), t') →
      (board.Passive frame → ∃ k ≤ 2, (board.step s).exec = board.executor.elapse^[k] s.exec) ∧
      (frame.opcode ≠ OP_SET_PARAM → (board.step s).params = s.params)) ∧
    (∀ slot : UInt32, getParam s.params slot =
      if slot.toNat < PARAM_SLOT_COUNT then lastParam (receivedFrames s.log) slot else 0) ∧
    (∀ {H W : Type} (e : ThreadedExecutor H W) (k : Nat),
      ThreadedExecutor.elapse^[k] e = { e with
        handle := e.handle.map fun worker =>
          { worker with remaining := worker.remaining - k } }) := by
  refine ⟨fun frame t' hf hr => ?_, holdsParams_run t exec n, ThreadedExecutor.elapse_iterate⟩
  rcases step_of_frame hf hr with hs | ⟨fault, hstep⟩
  · exact ⟨fun hpassive => hs.exec_of_passive hpassive,
      fun hop => hs.params_eq (mt Request.ofOpcode_eq_setParam.mp hop)⟩
  · rw [hstep]
    exact ⟨fun _ => ⟨0, by decide, rfl⟩, fun _ => rfl⟩

end Board

end Milo.MainLoop

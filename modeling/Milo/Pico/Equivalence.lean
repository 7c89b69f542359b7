import Milo.Pico
import Milo.MainLoop.Connection
import Milo.MainLoop.SingleCore
import Milo.Transport.Stream

namespace Milo.Pico

open Milo.Lib Milo.Rust Milo.Engine.Link Milo.Engine.Executor Milo.Engine.Validation Milo.Transport
open Milo.Engine.Signing Milo.MainLoop

theorem rejected_append (names : String) :
    "\x7b\"ok\":false,\"error\":\"rejected imports: " ++ names =
      "\x7b\"ok\":false,\"error\":\"" ++ ("rejected imports: " ++ names) := by
  rw [← String.append_assoc]
  exact congrArg (· ++ names) (by simp)

theorem rejectedJson_eq (rejected : List String) :
    rejectedJson rejected = rejectedImportsJson rejected :=
  congrArg (· ++ "\"\x7d") (rejected_append _)

variable {H : Type} {manifestJson : String} {width : Nat} {ed25519 : Option Ed25519}
variable {runtime : InlineRuntime H}

section Frames

-- The Pico after one more frame.
def step (manifestJson : String) (width : Nat) (runtime : InlineRuntime H) (p : Receiver H)
    (frame : Frame) : Receiver H :=
  match p.fault with
  | some _ => p
  | none =>
      match handle manifestJson width runtime p frame with
      | .ok p => p
      | .error fault => { p with fault := some fault }

theorem step_of_fault {p : Receiver H} {fault : Fault} (h : p.fault = some fault) (frame : Frame) :
    step manifestJson width runtime p frame = p := by
  simp only [step, h]

theorem foldl_step_of_fault {p : Receiver H} {fault : Fault} (h : p.fault = some fault)
    (frames : List Frame) : frames.foldl (step manifestJson width runtime) p = p := by
  induction frames with
  | nil => rfl
  | cons frame frames ih => rw [List.foldl_cons, step_of_fault h, ih]

theorem handle_fault {p p' : Receiver H} {frame : Frame}
    (h : handle manifestJson width runtime p frame = .ok p') : p'.fault = p.fault := by
  unfold handle at h
  split_ifs at h
  · obtain rfl := Except.ok.inj h
    rfl
  · obtain rfl := Except.ok.inj h
    rfl
  · obtain ⟨v, -, h⟩ := bind_eq_ok.mp h
    cases hv : v.valid with
    | false =>
        rw [hv] at h
        obtain rfl := Except.ok.inj h
        rfl
    | true =>
        rw [hv] at h
        obtain rfl := Except.ok.inj h
        rfl

-- The parser loop handles the complete frames of its buffer one after the other.
theorem parse_loop (manifestJson : String) (width : Nat) (runtime : InlineRuntime H) (buf : Bytes)
    (p : Receiver H) (hp : p.fault = none) (fuel : Nat) (hf : buf.length < fuel) :
    ∃ s, loopFuel (parse manifestJson width runtime) fuel (buf, p) = some s ∧
      s.2 = (completeFrames buf).foldl (step manifestJson width runtime) p ∧
      (s.2.fault = none → s.1 = resynchronized buf) := by
  obtain ⟨fuel, rfl⟩ : ∃ n, fuel = n + 1 := ⟨fuel - 1, by omega⟩
  induction buf using framing_link.buffer_induction generalizing p fuel with
  | none buf hnone =>
      have hunread : unread buf = buf := Framing.leftover_of_none hnone
      have hitems : completeFrames buf = [] := Framing.items_of_none hnone
      rw [hitems, List.foldl_nil]
      cases hb : bufferHead buf with
      | short =>
          refine ⟨(buf, p), loopFuel_succ_of_done _ (by simp only [parse, hb]) fuel, rfl, fun _ => ?_⟩
          simp only [resynchronized, hunread, hb]
      | oversized =>
          refine ⟨([], p), loopFuel_succ_of_done _ (by simp only [parse, hb]) fuel, rfl, fun _ => ?_⟩
          simp only [resynchronized, hunread, hb]
      | frame frame rest =>
          rw [bufferHead_eq_frame.mp hb] at hnone
          cases hnone
  | some buf frame rest hsome ih =>
      have hlt := framing_link.rest_lt hsome
      have hb := bufferHead_eq_frame.mpr hsome
      have hunread : unread buf = unread rest := framing_link.leftover_of_some hsome
      have hitems : completeFrames buf = frame :: completeFrames rest :=
        framing_link.items_of_some hsome
      rw [hitems, List.foldl_cons]
      cases hh : handle manifestJson width runtime p frame with
      | ok p' =>
          obtain ⟨fuel, rfl⟩ : ∃ n, fuel = n + 1 := ⟨fuel - 1, by omega⟩
          have hstep : step manifestJson width runtime p frame = p' := by simp only [step, hp, hh]
          rw [loopFuel_succ_of_next _ (show _ = Flow.next (rest, p') by simp only [parse, hb, hh]), hstep]
          have hrest : resynchronized buf = resynchronized rest := by
            simp only [resynchronized, hunread]
          rw [hrest]
          exact ih p' ((handle_fault hh).trans hp) fuel (by omega)
      | error fault =>
          have hstep : step manifestJson width runtime p frame = { p with fault := some fault } := by
            simp only [step, hp, hh]
          refine ⟨(rest, { p with fault := some fault }),
            loopFuel_succ_of_done _ (by simp only [parse, hb, hh]) fuel, ?_, fun h => ?_⟩
          · rw [hstep, foldl_step_of_fault rfl]
          · cases h

theorem receive_of_fault {s : Bytes × Receiver H} {fault : Fault} (h : s.2.fault = some fault)
    (packet : Packet) : receive manifestJson width runtime s packet = s := by
  simp only [receive, h]

theorem receive_eq (manifestJson : String) (width : Nat) (runtime : InlineRuntime H) (buf : Bytes)
    {p : Receiver H} (hp : p.fault = none) (packet : Packet) :
    (receive manifestJson width runtime (buf, p) packet).2 =
        (picoReceive buf packet).1.foldl (step manifestJson width runtime) p ∧
      ((receive manifestJson width runtime (buf, p) packet).2.fault = none →
        (receive manifestJson width runtime (buf, p) packet).1 = (picoReceive buf packet).2) := by
  obtain ⟨s, hs, hframes, hbuf⟩ := parse_loop manifestJson width runtime
    (buf ++ packet.bytes) p hp _ (Nat.lt_succ_self _)
  rw [picoReceive_eq]
  simp only [receive, hp, hs, Option.getD_some]
  exact ⟨hframes, hbuf⟩

theorem run_of_fault {s : Bytes × Receiver H} {fault : Fault} (h : s.2.fault = some fault)
    (packets : List Packet) : run manifestJson width runtime s packets = s := by
  induction packets with
  | nil => rfl
  | cons packet packets ih => rw [run, List.foldl_cons, receive_of_fault h, ← run, ih]

-- However the session is cut, the Pico does what it does frame by frame.
theorem run_eq (packets : List Packet) (buf : Bytes) (p : Receiver H) (hp : p.fault = none) :
    (run manifestJson width runtime (buf, p) packets).2 =
      (picoFrames buf packets).foldl (step manifestJson width runtime) p := by
  induction packets generalizing buf p with
  | nil => rfl
  | cons packet packets ih =>
      obtain ⟨hframes, hbuf⟩ := receive_eq manifestJson width runtime buf hp packet
      rw [run, List.foldl_cons, ← run, picoFrames, List.foldl_append, ← hframes]
      cases hfault : (receive manifestJson width runtime (buf, p) packet).2.fault with
      | none =>
          rw [← ih _ _ hfault, ← hbuf hfault]
      | some fault =>
          rw [run_of_fault hfault, foldl_step_of_fault hfault]

end Frames

section MainLoop

-- The shared loop with the executor of the boards without threads, under no policy.
abbrev sharedBoard (manifestJson : String) (ed25519 : Option Ed25519) (width : Nat)
    (runtime : InlineRuntime H) : Board Connection (SingleCoreExecutor H) H :=
  Settings.singleCore
    { manifestJson := manifestJson, policy := .open, ed25519 := ed25519, width := width }
    Connection.transport runtime

-- The Pico and the shared loop have written the same bytes and have the hardware alike.
structure Agrees (p : Receiver H) (s : MainLoop.Receiver Connection (SingleCoreExecutor H)) : Prop where
  written : p.written = s.transport.outgoing.flatMap Frame.serialize
  hardware : s.exec.hardware = some p.hal
  fuel : s.exec.fuel = some FUEL
  executed : s.exec.executed = p.executed
  status : s.exec.lastStatus ≠ .completed
  fault : s.fault = p.fault

variable {p : Receiver H} {s : MainLoop.Receiver Connection (SingleCoreExecutor H)} {frame : Frame}

theorem agrees_start (hal : H) (c : Connection) (hc : c.outgoing = []) :
    Agrees (.start hal) (.start c (.new hal (some FUEL))) where
  written := by
    change [] = c.outgoing.flatMap Frame.serialize
    rw [hc, List.flatMap_nil]
  hardware := rfl
  fuel := rfl
  executed := rfl
  status := fun h => by cases h
  fault := rfl

theorem Agrees.receive (h : Agrees p s) {t : Connection} (ht : t.outgoing = s.transport.outgoing)
    (outcome : Except LinkError Frame) : Agrees p (Board.receive s t outcome) where
  written := by
    rw [h.written, ← ht]
    rfl
  hardware := h.hardware
  fuel := h.fuel
  executed := h.executed
  status := h.status
  fault := h.fault

theorem Agrees.answer (h : Agrees p s) (request response : Frame) :
    Agrees (p.write response)
      ((sharedBoard manifestJson ed25519 width runtime).answer s request response) where
  written := by
    change p.written ++ _ = (s.transport.outgoing ++ [response]).flatMap Frame.serialize
    rw [h.written, List.flatMap_append, List.flatMap_singleton]
  hardware := h.hardware
  fuel := h.fuel
  executed := h.executed
  status := h.status
  fault := h.fault

-- A submit runs the module at once, and the next poll_result has its outcome.
theorem Agrees.report_submit (h : Agrees p s) (wasm : Bytes) :
    Agrees (execute runtime p wasm) ((sharedBoard manifestJson ed25519 width runtime).report
      ((sharedBoard manifestJson ed25519 width runtime).submit s wasm)) := by
  have hpoll : (s.exec.submit runtime wasm).pollResult =
      (some (ExecResult.ofRun (runtime p.executed (some FUEL) p.hal wasm).2),
        { s.exec with
          hardware := some (runtime p.executed (some FUEL) p.hal wasm).1
          lastStatus := .idle
          lastResult := none
          executed := p.executed + 1 }) := by
    simp only [SingleCoreExecutor.submit, h.hardware, h.executed, h.fuel,
      SingleCoreExecutor.pollResult, if_true]
  have hreport : (sharedBoard manifestJson ed25519 width runtime).executor.pollResult
      ((sharedBoard manifestJson ed25519 width runtime).executor.elapse
        ((sharedBoard manifestJson ed25519 width runtime).submit s wasm).exec) =
      (s.exec.submit runtime wasm).pollResult := rfl
  unfold Board.report
  rw [hreport, hpoll]
  constructor
  · change p.written ++ _ = (s.transport.outgoing ++ [_]).flatMap Frame.serialize
    rw [h.written, List.flatMap_append, List.flatMap_singleton]
  · rfl
  · exact h.fuel
  · rfl
  · exact fun h => by cases h
  · exact h.fault

-- What two computations that may fail make of related states.
inductive Alike {α β : Type} (R : α → β → Prop) : Except Fault α → Except Fault β → Prop
  | ok {a : α} {b : β} (h : R a b) : Alike R (.ok a) (.ok b)
  | error (fault : Fault) : Alike R (.error fault) (.error fault)

-- The opcodes that both loops serve in the same way.
def Served (frame : Frame) : Prop := frame.opcode = OP_DISCOVERY ∨ frame.opcode = OP_BYTECODE_PUSH

theorem Agrees.dispatch (manifestJson : String) (ed25519 : Option Ed25519) (width : Nat)
    (runtime : InlineRuntime H) (h : Agrees p s) (hserved : Served frame) :
    Alike Agrees (handle manifestJson width runtime p frame)
      ((sharedBoard manifestJson ed25519 width runtime).dispatch s frame) := by
  obtain ⟨opcode, payload⟩ := frame
  rcases hserved with hop | hop
  · obtain rfl : opcode = OP_DISCOVERY := hop
    exact .ok (h.answer _ _)
  · obtain rfl : opcode = OP_BYTECODE_PUSH := hop
    have hhandle : handle manifestJson width runtime p ⟨OP_BYTECODE_PUSH, payload⟩ =
        validateWasmImports width payload >>= fun v =>
          if !v.valid then .ok (p.write (execResultFrame (rejectedJson v.rejectedImports)))
          else .ok (execute runtime p payload) := rfl
    simp only [rejectedJson_eq] at hhandle
    rw [hhandle]
    change Alike Agrees _ ((validateWasmImports width payload >>= _) >>= _)
    cases validateWasmImports width payload with
    | error fault => exact .error fault
    | ok v =>
        obtain ⟨valid, rejected⟩ := v
        cases valid with
        | true => exact .ok (h.report_submit payload)
        | false => exact .ok (h.answer _ _)

theorem Agrees.report_eq (h : Agrees p s) :
    (sharedBoard manifestJson ed25519 width runtime).report s = s := by
  have hpoll : (sharedBoard manifestJson ed25519 width runtime).executor.pollResult
      ((sharedBoard manifestJson ed25519 width runtime).executor.elapse s.exec) = (none, s.exec) :=
    if_neg h.status
  unfold Board.report
  rw [hpoll]

theorem Agrees.step_error (manifestJson : String) (ed25519 : Option Ed25519) (width : Nat)
    (runtime : InlineRuntime H) (h : Agrees p s) (hp : p.fault = none) {e : LinkError}
    {t : Connection} (hr : s.transport.readFrame = (.ok (.error e), t)) :
    Agrees p ((sharedBoard manifestJson ed25519 width runtime).step s) ∧
      ((sharedBoard manifestJson ed25519 width runtime).step s).transport = t := by
  have hreceive : Agrees p (Board.receive s t (.error e)) :=
    h.receive (Connection.readFrame_error hr).2 _
  have hread : (sharedBoard manifestJson ed25519 width runtime).transport.readFrame s.transport =
      (.ok (.error e), t) := hr
  have hstep : (sharedBoard manifestJson ed25519 width runtime).step s =
      Board.receive s t (.error e) := by
    simp only [Board.step, h.fault, hp, Board.loopBody, hread, hreceive.report_eq]
  rw [hstep]
  exact ⟨hreceive, rfl⟩

theorem Agrees.step_ok (manifestJson : String) (ed25519 : Option Ed25519) (width : Nat)
    (runtime : InlineRuntime H) (h : Agrees p s) (hp : p.fault = none) (hserved : Served frame)
    {t : Connection} (hr : s.transport.readFrame = (.ok (.ok frame), t)) :
    Agrees (step manifestJson width runtime p frame)
        ((sharedBoard manifestJson ed25519 width runtime).step s) ∧
      ((step manifestJson width runtime p frame).fault = none →
        ((sharedBoard manifestJson ed25519 width runtime).step s).transport.incoming = t.incoming) := by
  have hread : (sharedBoard manifestJson ed25519 width runtime).transport.readFrame s.transport =
      (.ok (.ok frame), t) := hr
  have hreceive : Agrees p (Board.receive s t (.ok frame)) :=
    h.receive (Connection.readFrame_ok hr).2 _
  have hdispatch := hreceive.dispatch manifestJson ed25519 width runtime hserved
  simp only [step, Board.step, h.fault, hp, Board.loopBody, hread]
  generalize handle manifestJson width runtime p frame = handled at hdispatch ⊢
  cases hd : (sharedBoard manifestJson ed25519 width runtime).dispatch
      (Board.receive s t (.ok frame)) frame with
  | error fault =>
      rw [hd] at hdispatch
      cases hdispatch
      exact ⟨⟨h.written, h.hardware, h.fuel, h.executed, h.status, rfl⟩,
        fun h => by cases h⟩
  | ok s' =>
      obtain ⟨_, _, hwrote, -⟩ := Board.Handled.wrote rfl (Board.dispatch_handled _ hd)
      rw [hd] at hdispatch
      cases hdispatch with
      | ok hagrees => exact ⟨hagrees, fun _ => hwrote.incoming⟩

theorem run_of_agrees_fault (h : Agrees p s) {fault : Fault} (hp : p.fault = some fault) (n : Nat) :
    (sharedBoard manifestJson ed25519 width runtime).run s n = s := by
  induction n with
  | zero => rfl
  | succ n ih => simp only [Board.run, ih, Board.step, h.fault, hp]

-- The shared loop on the frames of the session, with idle gaps wherever they come.
theorem Agrees.run {n : Nat} {incoming : List (Except LinkError Frame)} (hn : incoming.length ≤ n)
    (h : Agrees p s) (hin : p.fault = none → s.transport.incoming = incoming)
    (hserved : ∀ frame ∈ incoming.filterMap (·.toOption), Served frame) :
    Agrees ((incoming.filterMap (·.toOption)).foldl (step manifestJson width runtime) p)
      ((sharedBoard manifestJson ed25519 width runtime).run s n) := by
  induction n generalizing p s incoming with
  | zero =>
      obtain rfl : incoming = [] := List.length_eq_zero_iff.mp (Nat.le_zero.mp hn)
      exact h
  | succ n ih =>
      cases hp : p.fault with
      | some fault =>
          rw [foldl_step_of_fault hp, run_of_agrees_fault h hp]
          exact h
      | none =>
          replace hin := hin hp
          rw [Board.run_succ_left]
          cases incoming with
          | nil =>
              have hread : s.transport.readFrame = (.ok (.error (.io "idle")), s.transport) := by
                simp only [Connection.readFrame, hin]
              obtain ⟨hagrees, ht⟩ := h.step_error manifestJson ed25519 width runtime hp hread
              have hkept := congrArg Connection.incoming ht
              exact ih (Nat.zero_le n) hagrees (fun _ => hkept.trans hin) hserved
          | cons outcome incoming =>
              have hlen : incoming.length ≤ n := Nat.le_of_succ_le_succ hn
              have hread : s.transport.readFrame =
                  (.ok outcome, { s.transport with incoming := incoming }) := by
                simp only [Connection.readFrame, hin]
              cases outcome with
              | error e =>
                  have hframes : (Except.error e :: incoming).filterMap (·.toOption) =
                      incoming.filterMap (Except.toOption (α := Frame)) := rfl
                  rw [hframes] at hserved ⊢
                  obtain ⟨hagrees, ht⟩ := h.step_error manifestJson ed25519 width runtime hp hread
                  have hkept := congrArg Connection.incoming ht
                  exact ih hlen hagrees (fun _ => hkept) hserved
              | ok frame =>
                  have hframes : (Except.ok frame :: incoming).filterMap (·.toOption) =
                      frame :: incoming.filterMap (Except.toOption (ε := LinkError)) := rfl
                  rw [hframes] at hserved ⊢
                  obtain ⟨hagrees, hkept⟩ := h.step_ok manifestJson ed25519 width runtime hp
                    (hserved _ List.mem_cons_self) hread
                  exact ih hlen hagrees hkept fun frame hmem =>
                    hserved frame (List.mem_cons_of_mem _ hmem)

end MainLoop

-- A session from power-up on, on the Pico and on the shared loop.
def session (manifestJson : String) (width : Nat) (runtime : InlineRuntime H) (hal : H)
    (packets : List Packet) : Receiver H :=
  (run manifestJson width runtime ([], .start hal) packets).2

def sharedSession (manifestJson : String) (ed25519 : Option Ed25519) (width : Nat)
    (runtime : InlineRuntime H) (hal : H) (incoming : List (Except LinkError Frame)) (n : Nat) :
    MainLoop.Receiver Connection (SingleCoreExecutor H) :=
  (sharedBoard manifestJson ed25519 width runtime).run
    (.start { incoming := incoming, outgoing := [] } (.new hal (some FUEL))) n

-- A hardware with a record of the modules executed on it, each next to the state of
-- the hardware that it found.
def recording (runtime : InlineRuntime H) : InlineRuntime (H × List (H × Bytes)) :=
  fun executed fuel hal bytecode =>
    let (hal', outcome) := runtime executed fuel hal.1 bytecode
    ((hal', hal.2 ++ [(hal.1, bytecode)]), outcome)

theorem session_agrees (manifestJson : String) (ed25519 : Option Ed25519) (width : Nat)
    (runtime : InlineRuntime H) (hal : H) {packets : List Packet}
    {incoming : List (Except LinkError Frame)} {n : Nat}
    (hserved : ∀ frame ∈ incoming.filterMap (·.toOption),
      Served frame ∧ frame.payload.length ≤ MAX_FRAME_LEN)
    (hpackets : packetBytes packets = (incoming.filterMap (·.toOption)).flatMap Frame.serialize)
    (hn : incoming.length ≤ n) :
    Agrees (session manifestJson width runtime hal packets)
      (sharedSession manifestJson ed25519 width runtime hal incoming n) := by
  have hbound := fun frame hmem => (hserved frame hmem).2
  have hover : ¬Overlong ([] ++ packetBytes packets) := by
    rw [List.nil_append, hpackets]
    exact frames_not_overlong hbound
  have hframes : picoFrames [] packets = incoming.filterMap (·.toOption) := by
    rw [(picoFrames_eq [] packets framing_link.next_nil hover).1, List.nil_append, hpackets]
    exact (frames_stream hbound).1
  rw [session, run_eq packets [] _ rfl, hframes]
  exact (agrees_start hal { incoming := incoming, outgoing := [] } rfl).run hn (fun _ => rfl)
    fun frame hmem => (hserved frame hmem).1

-- The Pico's own loop does what the shared loop does with a single-core executor and
-- without a policy: the same bytes go out, the same modules run on the same hardware, and
-- both are ended by the same fault.
theorem pico_equivalent (manifestJson : String) (ed25519 : Option Ed25519) (width : Nat)
    (runtime : InlineRuntime H) (hal : H) (frames : List Frame) (packets : List Packet)
    (incoming : List (Except LinkError Frame)) (n : Nat)
    (hserved : ∀ frame ∈ frames, (frame.opcode = OP_DISCOVERY ∨ frame.opcode = OP_BYTECODE_PUSH) ∧
      frame.payload.length ≤ MAX_FRAME_LEN)
    (hpackets : packetBytes packets = frames.flatMap Frame.serialize)
    (hincoming : incoming.filterMap (·.toOption) = frames) (hn : incoming.length ≤ n) :
    let pico := session manifestJson width runtime hal packets
    let shared := sharedSession manifestJson ed25519 width runtime hal incoming n
    let picoRecord := session manifestJson width (recording runtime) (hal, []) packets
    let sharedRecord :=
      sharedSession manifestJson ed25519 width (recording runtime) (hal, []) incoming n
    pico.written = shared.transport.outgoing.flatMap Frame.serialize ∧
      shared.exec.hardware = some pico.hal ∧ shared.fault = pico.fault ∧
      sharedRecord.exec.hardware = some picoRecord.hal := by
  subst hincoming
  have h := session_agrees manifestJson ed25519 width runtime hal hserved hpackets hn
  have hrecord := session_agrees manifestJson ed25519 width (recording runtime) (hal, []) hserved
    hpackets hn
  exact ⟨h.written, h.hardware, h.fault, hrecord.hardware⟩

-- A discovery and two pushes, of which the second is no module, cut into three packets.
def mixedFrames : List Frame :=
  [⟨OP_DISCOVERY, []⟩, ⟨OP_BYTECODE_PUSH, emptyModule⟩, ⟨OP_BYTECODE_PUSH, [0x00]⟩]

def mixedPackets : List Packet :=
  [⟨[0x01, 0x00], by decide, by decide⟩,
    ⟨[0x00, 0x00, 0x00, 0x02, 0x00, 0x00, 0x00, 0x08, 0x00, 0x61, 0x73, 0x6D], by decide, by decide⟩,
    ⟨[0x01, 0x00, 0x00, 0x00, 0x02, 0x00, 0x00, 0x00, 0x01, 0x00], by decide, by decide⟩]

def countingRuntime : InlineRuntime Nat := fun _ _ hal _ => (hal + 1, .ok [])

theorem mixedFrames_equivalent :
    (session "" 32 countingRuntime 0 mixedPackets).written =
      (sharedSession "" none 32 countingRuntime 0 (mixedFrames.map .ok) 3).transport.outgoing.flatMap
        Frame.serialize :=
  (pico_equivalent "" none 32 countingRuntime 0 mixedFrames mixedPackets (mixedFrames.map .ok) 3
    (by decide) (by decide) (by rfl) (Nat.le_refl 3)).1

end Milo.Pico

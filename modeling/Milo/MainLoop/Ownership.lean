import Milo.MainLoop.Ledger

namespace Milo.Engine.Executor

theorem threadPanicked_ne_noHardware : threadPanicked ≠ noHardware := by decide

namespace ThreadedExecutor

variable {H W : Type} {e : ThreadedExecutor H W}

-- The backend is in the slot, or a worker has it.
def Owned (e : ThreadedExecutor H W) : Prop :=
  (e.hardware.isSome ∧ e.handle.isNone) ∨ (e.hardware.isNone ∧ e.handle.isSome)

instance (e : ThreadedExecutor H W) : Decidable e.Owned := inferInstanceAs (Decidable (_ ∨ _))

-- The slot is empty while a worker is held.
def Lent (e : ThreadedExecutor H W) : Prop := e.handle.isSome → e.hardware.isNone

theorem lent_submit (runtime : Runtime H) (bytecode : Bytes) : (e.submit runtime bytecode).Lent := by
  have hhandle := preempt_handle e
  unfold submit Lent
  generalize e.preempt = e at hhandle ⊢
  cases hhw : e.hardware with
  | none => exact fun _ => by simp [hhw]
  | some hw => exact fun _ => by simp [hhw]

theorem Lent.collect (h : e.Lent) : e.collect.Lent := by
  unfold ThreadedExecutor.collect
  split
  · rename_i worker hworker
    split_ifs
    · intro hsome
      rw [(reap_of_handle hworker).1] at hsome
      cases hsome
    · exact h
  · exact h

theorem Lent.pollResult (h : e.Lent) : e.pollResult.2.Lent := by
  have hc := h.collect
  unfold ThreadedExecutor.pollResult
  generalize e.collect = e at hc ⊢
  dsimp only
  split
  · exact hc
  · exact hc

theorem Lent.elapse (h : e.Lent) : e.elapse.Lent := by
  intro hsome
  exact h (by simpa [ThreadedExecutor.elapse] using hsome)

theorem Lent.owned_iff (h : e.Lent) : e.Owned ↔ (e.handle = none → e.hardware.isSome) := by
  unfold Owned
  cases hh : e.handle with
  | none => simp
  | some worker => simpa [hh, Lent] using h

end ThreadedExecutor

end Milo.Engine.Executor

namespace Milo.MainLoop

open Milo.Rust Milo.Engine.Link Milo.Engine.Executor Milo.Transport

namespace Board

section Invariant

variable {T E H : Type} {board : Board T E H} {s s' : Receiver T E} {I : E → Prop}

-- What every call of the executor keeps, the main loop keeps.
structure Kept (board : Board T E H) (I : E → Prop) : Prop where
  submit : ∀ e bytecode, I e → I (board.executor.submit e bytecode)
  pollResult : ∀ e, I e → I (board.executor.pollResult e).2
  stop : ∀ e, I e → I (board.executor.stop e)
  elapse : ∀ e, I e → I (board.executor.elapse e)

theorem Kept.report (hI : board.Kept I) (h : I s.exec) : I (board.report s).exec := by
  have hpoll := hI.pollResult _ (hI.elapse _ h)
  unfold Board.report
  split
  · rename_i exec hp
    rwa [hp] at hpoll
  · rename_i result exec hp
    rwa [hp] at hpoll

theorem Kept.handled (hI : board.Kept I) {frame : Frame} (hs : board.Handled s frame s')
    (h : I s.exec) : I s'.exec := by
  cases hs with
  | discovery _ => exact h
  | refused _ _ _ _ => exact h
  | pushed _ wasm _ _ => exact hI.report (hI.submit _ _ (hI.elapse _ h))
  | swapped _ wasm _ _ =>
      exact hI.report (hI.submit _ _ (hI.elapse _ (hI.stop _ (hI.elapse _ h))))
  | stopped _ => exact hI.stop _ (hI.elapse _ h)
  | queried _ => exact hI.elapse _ (hI.elapse _ h)
  | param _ =>
      unfold setParam
      split <;> exact h
  | unknown _ => exact h

theorem Kept.stepped (hI : board.Kept I) (hs : board.Stepped s s') (h : I s.exec) : I s'.exec := by
  cases hs with
  | ended fault => exact h
  | idle e t _ _ => exact hI.report (s := receive s t (.error e)) h
  | handled frame t s' _ _ hs => exact hI.handled hs h

theorem Kept.run (hI : board.Kept I) (h : I s.exec) (n : Nat) : I (board.run s n).exec :=
  board.run_induction (motive := fun s => I s.exec) h (fun _ _ hs h => hI.stepped hs h) n

end Invariant

end Board

namespace Ledger

variable {H : Type} (settings : Settings) (runtime : Runtime H)

-- The module that a frame has run comes to an end without a panic.
def Ends (l : Ledger H) (frame : Frame) : Prop :=
  ∀ signed wasm hw, (Request.ofOpcode frame.opcode).loads = some signed →
    settings.authorizeModule frame.payload signed = .ok (.ok wasm) → l.seq.hardware = some hw →
      (runtime l.seq.started l.seq.fuel hw wasm).outcome.isSome

def AllEnd (l : Ledger H) : List Frame → Prop
  | [] => True
  | frame :: frames => l.Ends settings runtime frame ∧ (l.enter settings runtime frame).AllEnd frames

variable {settings runtime} {l : Ledger H} {frame : Frame}

theorem accept_hardware {hw : H} (wasm : Bytes) (h : l.seq.hardware = some hw) :
    (l.accept runtime frame wasm).seq.hardware.isSome =
      (runtime l.seq.started l.seq.fuel hw wasm).outcome.isSome := by
  simp only [accept, Sequential.submit, h, Sequential.ending]
  split <;> simp [*]

-- Once lost, the backend does not come back.
theorem Entered.hardware_none {l' : Ledger H} (h : Entered settings runtime l frame l')
    (hhw : l.seq.hardware = none) : l'.seq.hardware = none := by
  cases h with
  | accepted signed wasm hloads hauth => simp only [accept, Sequential.submit, hhw]
  | refused signed message hloads hauth => exact hhw
  | kept hauth => exact hhw

theorem enterAll_hardware_none (frames : List Frame) (h : l.seq.hardware = none) :
    (l.enterAll settings runtime frames).seq.hardware = none := by
  induction frames generalizing l with
  | nil => exact h
  | cons frame frames ih => exact ih ((enter_entered settings runtime l frame).hardware_none h)

theorem ends_of_not_accepted (h : ∀ signed wasm, (Request.ofOpcode frame.opcode).loads = some signed →
    settings.authorizeModule frame.payload signed ≠ .ok (.ok wasm)) : l.Ends settings runtime frame :=
  fun signed wasm _ hloads hauth _ => absurd hauth (h signed wasm hloads)

theorem Entered.hardware_iff {l' : Ledger H} (h : Entered settings runtime l frame l')
    (hhw : l.seq.hardware.isSome) : l'.seq.hardware.isSome ↔ l.Ends settings runtime frame := by
  cases h with
  | accepted signed wasm hloads hauth =>
      obtain ⟨hw, hsome⟩ := Option.isSome_iff_exists.mp hhw
      rw [accept_hardware wasm hsome]
      constructor
      · intro hends signed' wasm' hw' hl ha hsome'
        obtain rfl := Option.some.inj (hloads.symm.trans hl)
        obtain rfl := Except.ok.inj (Except.ok.inj (hauth.symm.trans ha))
        obtain rfl := Option.some.inj (hsome.symm.trans hsome')
        exact hends
      · exact fun hends => hends signed wasm hw hloads hauth hsome
  | refused signed message hloads hauth =>
      refine iff_of_true hhw (ends_of_not_accepted fun signed' wasm hl ha => ?_)
      obtain rfl := Option.some.inj (hloads.symm.trans hl)
      cases Except.ok.inj (hauth.symm.trans ha)
  | kept hauth => exact iff_of_true hhw (ends_of_not_accepted fun signed wasm => hauth signed (.ok wasm))

theorem allEnd_iff (frames : List Frame) (h : l.seq.hardware.isSome) :
    l.AllEnd settings runtime frames ↔ (l.enterAll settings runtime frames).seq.hardware.isSome := by
  induction frames generalizing l with
  | nil => exact iff_of_true trivial h
  | cons frame frames ih =>
      change _ ∧ _ ↔ ((l.enter settings runtime frame).enterAll settings runtime frames).seq.hardware.isSome
      rw [← (enter_entered settings runtime l frame).hardware_iff h]
      cases hhw : (l.enter settings runtime frame).seq.hardware with
      | none => simp [enterAll_hardware_none frames hhw]
      | some hw => simpa using ih (by rw [hhw]; rfl)

theorem Entered.answers {l' : Ledger H} (h : Entered settings runtime l frame l')
    (hl : ∀ a ∈ l.seq.answers, a.2 ≠ noHardware) (hhw : l.seq.hardware.isSome) :
    ∀ a ∈ l'.seq.answers, a.2 ≠ noHardware := by
  cases h with
  | accepted signed wasm hloads hauth =>
      obtain ⟨hw, hsome⟩ := Option.isSome_iff_exists.mp hhw
      intro a ha
      simp only [accept, Sequential.submit_answers, List.mem_append, List.mem_singleton] at ha
      rcases ha with ha | rfl
      · exact hl a ha
      · simp only [Sequential.answer, hsome, Sequential.ending]
        split
        · exact ofRun_ne_noHardware _
        · exact threadPanicked_ne_noHardware
  | refused signed message hloads hauth => exact hl
  | kept hauth => exact hl

theorem AllEnd.answers {frames : List Frame} (h : l.AllEnd settings runtime frames)
    (hhw : l.seq.hardware.isSome) (hl : ∀ a ∈ l.seq.answers, a.2 ≠ noHardware) :
    ∀ a ∈ (l.enterAll settings runtime frames).seq.answers, a.2 ≠ noHardware := by
  induction frames generalizing l with
  | nil => exact hl
  | cons frame frames ih =>
      have hentered := enter_entered settings runtime l frame
      exact ih h.2 ((hentered.hardware_iff hhw).mpr h.1) (hentered.answers hl hhw)

end Ledger

namespace Board

theorem kept_lent {T H W : Type} (settings : Settings) (transport : MiloTransport T)
    (runtime : Runtime H) :
    (settings.threaded (W := W) transport runtime).Kept ThreadedExecutor.Lent where
  submit _ bytecode _ := ThreadedExecutor.lent_submit runtime bytecode
  pollResult _ h := h.pollResult
  stop _ h := h
  elapse _ h := h.elapse

-- In every run whose modules all end without a panic, the backend is in the slot or
-- with a worker, and no module is answered that there is none. A panic has taken the
-- backend away once its worker is no longer held.
theorem owned_run {T H W : Type} (settings : Settings) (transport : MiloTransport T)
    (runtime : Runtime H) (t : T) (hw : H) (fuel : Option UInt64) (stopHook startHook : Option (W → W))
    (world : W) (n : Nat) :
    let s := (settings.threaded transport runtime).run
      (.start t (.new hw fuel stopHook startHook world)) n
    ((Ledger.new hw fuel).AllEnd settings runtime (receivedFrames s.log) →
      s.exec.Owned ∧ noHardware ∉ takenResults s.log ∧ noHardware ∉ s.exec.available) ∧
    (s.exec.handle = none → s.exec.Owned →
      (Ledger.new hw fuel).AllEnd settings runtime (receivedFrames s.log)) := by
  intro s
  have hempty : (ThreadedExecutor.new hw fuel stopHook startHook world).Lent := fun h => by cases h
  have hlent : s.exec.Lent := (kept_lent settings transport runtime).run hempty n
  have haccounts : Accounts s _ :=
    accounts_run settings transport runtime t hw fuel stopHook startHook world n
  have hnew : (Ledger.new hw fuel).seq.hardware.isSome := rfl
  have hslot : s.exec.handle = none →
      s.exec.hardware = ((Ledger.new hw fuel).enterAll settings runtime
        (receivedFrames s.log)).seq.hardware := by
    intro hnone
    rw [← haccounts.hardware]
    simp only [ThreadedExecutor.nextHardware, hnone]
  constructor
  · intro hend
    have hne := hend.answers hnew (fun a ha => by cases ha)
    have hall : ∀ result ∈ takenResults s.log ++ s.exec.available, result ≠ noHardware := by
      rw [haccounts.answers]
      intro result hresult
      obtain ⟨a, ha, rfl⟩ := List.mem_map.mp hresult
      exact hne a ha
    refine ⟨hlent.owned_iff.mpr fun hnone => ?_, fun hmem => ?_, fun hmem => ?_⟩
    · rw [hslot hnone]
      exact (Ledger.allEnd_iff _ hnew).mp hend
    · exact hall _ (List.mem_append_left _ hmem) rfl
    · exact hall _ (List.mem_append_right _ hmem) rfl
  · intro hnone howned
    have hhw := hlent.owned_iff.mp howned hnone
    rw [hslot hnone] at hhw
    exact (Ledger.allEnd_iff _ hnew).mpr hhw

-- Two pushes, on a runtime where every module ends well.
def twoPushes : Connection :=
  { incoming := List.replicate 2 (.ok { opcode := OP_BYTECODE_PUSH, payload := emptyModule })
    outgoing := [] }

theorem owned_twoPushes :
    ((openSettings.threaded Connection.transport (silentRuntime 2)).run
      (.start twoPushes (.new () none none none ())) 2).exec.Owned :=
  ((owned_run openSettings Connection.transport (silentRuntime 2) twoPushes () none none none () 2).1
    ⟨fun _ _ _ _ _ _ => rfl, fun _ _ _ _ _ _ => rfl, trivial⟩).1

-- The first module panics, and the backend is gone when the second one comes.
theorem panic_loses_hardware :
    let state := (openSettings.threaded Connection.transport
      (fun _ _ _ _ => { outcome := none, duration := 0 })).run
        (.start twoPushes (ThreadedExecutor.new () none none none ()))
    ¬(state 1).exec.Owned ∧ takenResults (state 2).log = [threadPanicked, noHardware] := by
  decide

end Board

end Milo.MainLoop

import Milo.Host.Routing

namespace Milo.Host

open Milo.Lib Milo.Engine.Link Milo.Engine.Executor Milo.Transport Milo.MainLoop Milo.MainLoop.Board

section Receiver

variable {H W : Type} (settings : Settings) (runtime : Runtime H)

-- What holds of a receiver whatever order its answers go out in: none is lost, and
-- each request received has one.
structure Serves (start : Ledger H) (s : Receiver Connection (ThreadedExecutor H W)) : Prop where
  balanced : Tracks Balanced (ledger settings runtime start s) s
  loads : (ledger settings runtime start s).answers.map Prod.fst =
    (receivedFrames s.log).filter loadsCode
  asks : (statusAnswers s.log).map Prod.fst = (receivedFrames s.log).filter asksStatus
  statuses : (statusAnswers s.log).map Prod.snd = statusPayloads (writtenFrames s.log)

variable {settings runtime} {start : Ledger H} {s s' : Receiver Connection (ThreadedExecutor H W)}

theorem Serves.length_loads (h : Serves settings runtime start s) :
    ((receivedFrames s.log).filter loadsCode).length =
      (sentResults s.log).length + s.exec.available.length := by
  have hbalanced : (ledger settings runtime start s).payloads.length = _ := h.balanced.related
  rw [List.length_map] at hbalanced
  rw [← h.loads, ← hbalanced, Ledger.payloads, List.length_map, List.length_map]

theorem Serves.length_asks (h : Serves settings runtime start s) :
    ((receivedFrames s.log).filter asksStatus).length =
      (statusPayloads (writtenFrames s.log)).length := by
  rw [← h.asks, ← h.statuses, List.length_map, List.length_map]

theorem Serves.stepped (h : Serves settings runtime start s)
    (hknown : ∀ frame ∈ nextFrame s, Request.ofOpcode frame.opcode ≠ .unknown)
    (hs : (settings.threaded Connection.transport runtime).Stepped s s') :
    Serves settings runtime start s' := by
  obtain ⟨received, frames, answers, hc⟩ := hs.conversed rfl
  refine ⟨?_, hs.answered_frames h.loads, ?_, ?_⟩
  · exact h.balanced.stepped Balanced.queueing hknown
      (fun _ _ _ payload => h.balanced.related.answer payload) hs
  · rw [hc.statuses, hc.received_eq, List.map_append, List.filter_append, h.asks, hc.answered]
  · rw [hc.statuses, hc.written, List.map_append, h.statuses, ← hc.payloads]
    simp only [statusPayloads, List.filter_append, List.map_append]

end Receiver

namespace System

variable {H W : Type} (settings : Settings) (runtime : Runtime H)

-- What is known while a method that wrote a request waits: the request is the last
-- one, and the host has read exactly the answers to the earlier ones of its kind.
inductive Waits (start : Ledger H) (sys : System H W) (want : UInt8) (k : Nat) : Prop
  | result (earlier : List Frame) (frame : Frame) (hwant : want = OP_EXEC_RESULT)
      (hrequests : sys.requests = earlier ++ [frame]) (hk : k = earlier.length)
      (hloads : loadsCode frame = true)
      (hconsumed : (consumed sys.returned).length = (earlier.filter loadsCode).length)
      (horder : Tracks (InOrder (earlier.filter loadsCode).length)
        (ledger settings runtime start sys.receiver) sys.receiver)
  | status (earlier : List Frame) (frame : Frame) (hwant : want = OP_STATUS_RESPONSE)
      (hrequests : sys.requests = earlier ++ [frame]) (hk : k = earlier.length)
      (hloads : loadsCode frame = false) (hasks : asksStatus frame = true)
      (hread : (statusPayloads sys.read).length = (earlier.filter asksStatus).length)

structure Coherent (start : Ledger H) (sys : System H W) : Prop where
  requests_eq : sys.requests = receivedFrames sys.receiver.log ++ sys.inFlight
  known : ∀ frame ∈ sys.requests, Request.ofOpcode frame.opcode ≠ .unknown
  written : writtenFrames sys.receiver.log = sys.read ++ sys.receiver.transport.outgoing
  routed : resultPayloads sys.read = consumed sys.returned ++ sys.device.pendingResults
  serves : Serves settings runtime start sys.receiver
  pending : ∀ wait ∈ sys.waiting, wait.want = OP_EXEC_RESULT → sys.device.pendingResults = []
  waits : ∀ wait ∈ sys.waiting, ∀ k ∈ wait.request, Waits settings runtime start sys wait.want k
  correct : Correct settings runtime start sys

variable {settings runtime} {start : Ledger H} {sys sys' : System H W}

theorem Waits.of_eq {want : UInt8} {k : Nat} (h : Waits settings runtime start sys want k)
    (hrequests : sys'.requests = sys.requests) (hlog : sys'.receiver.log = sys.receiver.log)
    (hexec : sys'.receiver.exec = sys.receiver.exec)
    (hreturned : want = OP_EXEC_RESULT → consumed sys'.returned = consumed sys.returned)
    (hread : want = OP_STATUS_RESPONSE → statusPayloads sys'.read = statusPayloads sys.read) :
    Waits settings runtime start sys' want k := by
  cases h with
  | result earlier frame hwant hreq hk hloads hconsumed horder =>
      refine .result earlier frame hwant (hrequests.trans hreq) hk hloads ?_ ?_
      · rw [hreturned hwant, hconsumed]
      · refine ⟨?_, ?_⟩
        · rw [Accounts, ledger, hlog, hexec]
          exact horder.accounts
        · rw [ledger, hlog, hexec]
          exact horder.related
  | status earlier frame hwant hreq hk hloads hasks hr =>
      exact .status earlier frame hwant (hrequests.trans hreq) hk hloads hasks
        (by rw [hread hwant, hr])

theorem consumed_append (returned : List Return) (wait : Wait) (payload : Bytes) :
    consumed (returned ++ [⟨wait, payload⟩]) =
      consumed returned ++ if wait.want = OP_EXEC_RESULT then [payload] else [] := by
  unfold consumed
  split_ifs with hwant <;> simp [hwant]

theorem resultPayloads_append (frames more : List Frame) :
    resultPayloads (frames ++ more) = resultPayloads frames ++ resultPayloads more := by
  simp only [resultPayloads, List.filter_append, List.map_append]

theorem statusPayloads_append (frames more : List Frame) :
    statusPayloads (frames ++ more) = statusPayloads frames ++ statusPayloads more := by
  simp only [statusPayloads, List.filter_append, List.map_append]

-- Where the results sent so far are.
theorem Coherent.sentResults_eq (h : Coherent settings runtime start sys) :
    sentResults sys.receiver.log = consumed sys.returned ++ sys.device.pendingResults ++
      resultPayloads sys.receiver.transport.outgoing := by
  rw [sentResults, h.written, resultPayloads_append, h.routed]

-- While a method waits for a result, the executor is empty as long as a code-loading
-- frame has not been read.
theorem Coherent.available_eq_nil (h : Coherent settings runtime start sys) {earlier : List Frame}
    {frame next : Frame} (hrequests : sys.requests = earlier ++ [frame])
    (hloads : loadsCode frame = true)
    (hconsumed : (consumed sys.returned).length = (earlier.filter loadsCode).length)
    (hnext : next ∈ sys.inFlight) (hnextLoads : loadsCode next = true) :
    sys.receiver.exec.available = [] := by
  have hlen := congrArg (fun frames => (frames.filter loadsCode).length)
    (h.requests_eq.symm.trans hrequests)
  have hone : 0 < (sys.inFlight.filter loadsCode).length :=
    List.length_pos_of_mem (List.mem_filter.mpr ⟨hnext, hnextLoads⟩)
  have hsent := congrArg List.length h.sentResults_eq
  simp only [List.filter_append, List.length_append, h.serves.length_loads, hsent] at hlen
  simp only [List.filter_cons, hloads, if_true, List.filter_nil, List.length_singleton] at hlen
  apply List.eq_nil_of_length_eq_zero
  omega

theorem nextFrame_mem_inFlight {next : Frame} (hnext : next ∈ nextFrame sys.receiver) :
    next ∈ sys.inFlight := by
  apply List.mem_append_left
  unfold nextFrame at hnext
  unfold Connection.incomingFrames
  split at hnext
  · rename_i frame rest hin
    obtain rfl := Option.some.inj hnext
    rw [hin]
    exact List.mem_cons_self
  · cases hnext

theorem loadsCode_of_refuses {frame : Frame} (h : refuses settings frame = true) :
    loadsCode frame = true := by
  unfold refuses at h
  unfold loadsCode
  split at h
  · cases h
  · rename_i signed hloads
    rw [hloads]
    rfl

theorem Coherent.iterate (h : Coherent settings runtime start sys)
    {s' : Receiver Connection (ThreadedExecutor H W)}
    (hs : (settings.threaded Connection.transport runtime).Stepped sys.receiver s') :
    Coherent settings runtime start { sys with receiver := s' } := by
  have hknown : ∀ frame ∈ nextFrame sys.receiver, Request.ofOpcode frame.opcode ≠ .unknown := by
    intro frame hf
    apply h.known frame
    rw [h.requests_eq]
    exact List.mem_append_right _ (nextFrame_mem_inFlight hf)
  have hserves := h.serves.stepped hknown hs
  obtain ⟨received, frames, answers, hc⟩ := hs.conversed rfl
  refine ⟨?_, h.known, ?_, h.routed, hserves, h.pending, ?_, ?_⟩
  · simp only [h.requests_eq, inFlight, hc.received_eq, hc.incoming, List.append_assoc]
  · simp only [hc.written, h.written, hc.outgoing, List.append_assoc]
  · intro wait hw k hk
    cases h.waits wait hw k hk with
    | result earlier frame hwant hrequests hk hloads hconsumed horder =>
        refine .result earlier frame hwant hrequests hk hloads hconsumed ?_
        refine horder.stepped (InOrder.queueing _) hknown ?_ hs
        intro next hnext hrefused payload
        have hrelated := horder.related
        rw [h.available_eq_nil hrequests hloads hconsumed (nextFrame_mem_inFlight hnext)
          (loadsCode_of_refuses hrefused)] at hrelated ⊢
        exact hrelated.answer payload
    | status earlier frame hwant hrequests hk hloads hasks hread =>
        exact .status earlier frame hwant hrequests hk hloads hasks hread
  · intro r hr k hk
    exact answerTo_mono hc.received_eq hc.statuses (h.correct r hr k hk)

theorem Coherent.arrive (h : Coherent settings runtime start sys) :
    Coherent settings runtime start sys.arrive := by
  unfold System.arrive
  split
  · exact h
  · rename_i frame toDevice hto
    refine ⟨?_, h.known, h.written, h.routed, ?_, h.pending, ?_, h.correct⟩
    · rw [h.requests_eq]
      simp [inFlight, Connection.incomingFrames, hto, Except.toOption]
    · exact ⟨⟨h.serves.balanced.accounts, h.serves.balanced.related⟩, h.serves.loads, h.serves.asks,
        h.serves.statuses⟩
    · intro wait hw k hk
      exact (h.waits wait hw k hk).of_eq rfl rfl rfl (fun _ => rfl) (fun _ => rfl)

theorem Coherent.timeout (h : Coherent settings runtime start sys) :
    Coherent settings runtime start { sys with waiting := none } :=
  ⟨h.requests_eq, h.known, h.written, h.routed, h.serves, by simp, by simp, h.correct⟩

theorem Coherent.write (h : Coherent settings runtime start sys) (hwaiting : sys.waiting = none)
    {frame : Frame} (hknown : Request.ofOpcode frame.opcode ≠ .unknown) :
    Coherent settings runtime start (sys.write frame) := by
  refine ⟨?_, ?_, h.written, h.routed, h.serves, ?_, ?_, h.correct⟩
  · simp only [System.write, h.requests_eq, inFlight, List.append_assoc]
  · intro other hmem
    rcases List.mem_append.mp hmem with hmem | hmem
    · exact h.known other hmem
    · obtain rfl := List.mem_singleton.mp hmem
      exact hknown
  · simp [System.write, hwaiting]
  · simp [System.write, hwaiting]

-- A payload is returned that is the answer to the request, if there was one.
theorem Coherent.ret (h : Coherent settings runtime start sys) (wait : Wait) (payload : Bytes)
    {pending : List Bytes}
    (hrouted : resultPayloads sys.read =
      consumed (sys.returned ++ [⟨wait, payload⟩]) ++ pending)
    (hanswer : ∀ k ∈ wait.request, answerTo settings runtime start sys.receiver k = some payload) :
    Coherent settings runtime start
      (System.ret { sys with device := { pendingResults := pending } } wait payload) := by
  refine ⟨h.requests_eq, h.known, h.written, hrouted, h.serves, by simp [System.ret],
    by simp [System.ret], ?_⟩
  intro r hr k hk
  rcases List.mem_append.mp hr with hr | hr
  · exact h.correct r hr k hk
  · obtain rfl := List.mem_singleton.mp hr
    exact hanswer k hk

theorem Coherent.await (h : Coherent settings runtime start sys) (wait : Wait)
    (hwaits : ∀ k ∈ wait.request, Waits settings runtime start sys wait.want k)
    (hpending : wait.want = OP_EXEC_RESULT → ∀ k ∈ wait.request, sys.device.pendingResults = []) :
    Coherent settings runtime start (sys.await wait) := by
  have hwait (hnil : wait.want = OP_EXEC_RESULT → sys.device.pendingResults = []) :
      Coherent settings runtime start { sys with waiting := some wait } := by
    refine ⟨h.requests_eq, h.known, h.written, h.routed, h.serves, ?_, ?_, h.correct⟩
    · intro other ho
      obtain rfl := Option.some.inj ho
      exact hnil
    · intro other ho k hk
      obtain rfl := Option.some.inj ho
      exact (hwaits k hk).of_eq rfl rfl rfl (fun _ => rfl) (fun _ => rfl)
  unfold System.await
  split
  · rename_i payload pending hp
    split_ifs with hwant
    · apply h.ret
      · rw [h.routed, hp, consumed_append, if_pos hwant, List.append_assoc, List.singleton_append]
      · intro k hk
        rw [hpending hwant k hk] at hp
        cases hp
    · exact hwait fun hw => absurd hw hwant
  · rename_i hp
    exact hwait fun _ => hp

-- The request goes out with the way clear for it.
theorem Coherent.waits_write (h : Coherent settings runtime start sys) {op : Operation} {frame : Frame}
    {want : UInt8} (hreq : op.request = some frame) (hawaits : op.awaits = some want)
    (hclear : sys.Clear frame) :
    Waits settings runtime start (sys.write frame) want sys.requests.length := by
  rcases Operation.request_kind hreq hawaits with ⟨hwant, hloads⟩ | ⟨hwant, hloads, hasks⟩
  · rw [Clear, if_pos hloads] at hclear
    obtain ⟨hflight, havail, hout, hpending⟩ := hclear
    have hsent := h.sentResults_eq
    rw [hpending, hout, List.append_nil, List.append_nil] at hsent
    have hlen := h.serves.length_loads
    rw [havail, List.length_nil, Nat.add_zero] at hlen
    have hfilter : sys.requests.filter loadsCode = (receivedFrames sys.receiver.log).filter loadsCode := by
      rw [h.requests_eq, List.filter_append, hflight, List.append_nil]
    have hpayloads : (ledger settings runtime start sys.receiver).payloads.length =
        (sys.requests.filter loadsCode).length := by
      rw [Ledger.payloads, List.length_map, hfilter, ← h.serves.loads, List.length_map]
    refine .result sys.requests frame hwant rfl rfl hloads ?_ ⟨h.serves.balanced.accounts, ?_⟩
    · rw [hfilter, hlen, hsent]
      rfl
    · change InOrder _ _ _ (sys.receiver.exec.available.map resultPayload)
      rw [← hpayloads, havail]
      apply InOrder.of_length_eq
      change (sentResults sys.receiver.log).length =
        (ledger settings runtime start sys.receiver).payloads.length
      rw [hpayloads, hfilter, hlen]
  · rw [Clear, if_neg (by simp [hloads])] at hclear
    obtain ⟨hflight, hout⟩ := hclear
    refine .status sys.requests frame hwant rfl rfl hloads hasks ?_
    have hlen := h.serves.length_asks
    rw [h.written, statusPayloads_append, hout, List.append_nil] at hlen
    rw [h.requests_eq, List.filter_append, hflight, List.append_nil, hlen]
    rfl

theorem Coherent.call (h : Coherent settings runtime start sys) (op : Operation)
    (ha : sys.Allowed (.call op)) : Coherent settings runtime start (sys.call op) := by
  unfold System.call
  split
  · exact h
  · rename_i hwaiting
    cases hreq : op.request with
    | none =>
        cases hawaits : op.awaits with
        | none => exact h
        | some want => exact h.await ⟨want, none⟩ (by simp) (by simp)
    | some frame =>
        have hwrite := h.write hwaiting (Operation.request_known hreq)
        cases hawaits : op.awaits with
        | none => exact hwrite
        | some want =>
            have hclear := ha hwaiting (by rw [hawaits]; rfl) frame hreq
            apply hwrite.await ⟨want, some sys.requests.length⟩
            · intro k hk
              obtain rfl := Option.some.inj hk
              exact h.waits_write hreq hawaits hclear
            · intro hwant k _
              rcases Operation.request_kind hreq hawaits with ⟨_, hloads⟩ | ⟨hstatus, _⟩
              · rw [Clear, if_pos hloads] at hclear
                exact hclear.2.2.2
              · rw [hstatus] at hwant
                cases hwant

-- The frame a method has waited for carries the answer to its request.
theorem Coherent.answer_of_read (h : Coherent settings runtime start sys) {wait : Wait} {k : Nat}
    (hw : wait ∈ sys.waiting) (hk : k ∈ wait.request) {frame : Frame} {outgoing : List Frame}
    (hout : sys.receiver.transport.outgoing = frame :: outgoing) (hop : frame.opcode = wait.want) :
    answerTo settings runtime start sys.receiver k = some frame.payload := by
  cases h.waits wait hw k hk with
  | result earlier request hwant hrequests hk hloads hconsumed horder =>
      have hsent := h.sentResults_eq
      rw [h.pending wait hw hwant, List.append_nil, hout] at hsent
      have hget : (sentResults sys.receiver.log)[(earlier.filter loadsCode).length]? =
          some frame.payload := by
        rw [hsent, ← hconsumed, List.getElem?_append_right (Nat.le_refl _), Nat.sub_self]
        simp [resultPayloads, hop, hwant]
      have hlt := (List.getElem?_eq_some_iff.mp hget).1
      have hload := h.serves.length_loads
      have hnil := eq_nil_of_filter_lt loadsCode (h.requests_eq.symm.trans hrequests)
        (by omega)
      have hreceived : receivedFrames sys.receiver.log = earlier ++ [request] := by
        rw [← hrequests, h.requests_eq, hnil, List.append_nil]
      rw [hk, answerTo_last_load hreceived hloads, ← hget]
      exact horder.related.getElem?_eq (Nat.le_refl _) hlt
  | status earlier request hwant hrequests hk hloads hasks hread =>
      have hstatuses := h.serves.statuses
      rw [h.written, statusPayloads_append, hout] at hstatuses
      have hget : ((statusAnswers sys.receiver.log).map Prod.snd)[(earlier.filter asksStatus).length]? =
          some frame.payload := by
        rw [hstatuses, ← hread, List.getElem?_append_right (Nat.le_refl _), Nat.sub_self]
        simp [statusPayloads, hop, hwant]
      have hlt := (List.getElem?_eq_some_iff.mp hget).1
      rw [List.length_map] at hlt
      have hask := congrArg List.length h.serves.asks
      rw [List.length_map] at hask
      have hnil := eq_nil_of_filter_lt asksStatus (h.requests_eq.symm.trans hrequests)
        (by omega)
      have hreceived : receivedFrames sys.receiver.log = earlier ++ [request] := by
        rw [← hrequests, h.requests_eq, hnil, List.append_nil]
      rw [hk, answerTo_last_status hreceived hloads hasks, hget]

theorem Coherent.readRouted (h : Coherent settings runtime start sys) :
    Coherent settings runtime start sys.readRouted := by
  unfold System.readRouted
  split
  · rename_i wait frame outgoing hwaiting hout
    have hwritten : writtenFrames sys.receiver.log = sys.read ++ [frame] ++ outgoing := by
      rw [h.written, hout, List.append_assoc, List.singleton_append]
    have hserves : Serves settings runtime start
        { sys.receiver with transport := { sys.receiver.transport with outgoing := outgoing } } :=
      ⟨⟨h.serves.balanced.accounts, h.serves.balanced.related⟩, h.serves.loads, h.serves.asks,
        h.serves.statuses⟩
    have hread (hne : frame.opcode ≠ wait.want) (hwant : wait.want = OP_STATUS_RESPONSE) :
        statusPayloads (sys.read ++ [frame]) = statusPayloads sys.read := by
      rw [statusPayloads_append]
      simp [statusPayloads, ← hwant, hne]
    dsimp only
    split_ifs with hop hresult
    · refine ⟨h.requests_eq, h.known, hwritten, ?_, hserves, by simp [System.ret],
        by simp [System.ret], ?_⟩
      · change resultPayloads (sys.read ++ [frame]) =
          consumed (sys.returned ++ [⟨wait, frame.payload⟩]) ++ sys.device.pendingResults
        rw [resultPayloads_append, h.routed, consumed_append]
        by_cases hwant : wait.want = OP_EXEC_RESULT
        · simp [resultPayloads, hop, hwant, h.pending wait hwaiting hwant]
        · simp [resultPayloads, hop, hwant]
      · intro r hr k hk
        rcases List.mem_append.mp hr with hr | hr
        · exact h.correct r hr k hk
        · obtain rfl := List.mem_singleton.mp hr
          exact h.answer_of_read hwaiting hk hout hop
    · refine ⟨h.requests_eq, h.known, hwritten, ?_, hserves, ?_, ?_, h.correct⟩
      · rw [resultPayloads_append, h.routed, List.append_assoc]
        simp [resultPayloads, hresult]
      · intro other ho hwant
        obtain rfl := Option.some.inj (hwaiting.symm.trans ho)
        exact absurd (hresult.trans hwant.symm) hop
      · intro other ho k hk
        obtain rfl := Option.some.inj (hwaiting.symm.trans ho)
        exact (h.waits _ hwaiting k hk).of_eq rfl rfl rfl (fun _ => rfl) (hread hop)
    · refine ⟨h.requests_eq, h.known, hwritten, ?_, hserves, h.pending, ?_, h.correct⟩
      · rw [resultPayloads_append, h.routed]
        simp [resultPayloads, hresult]
      · intro other ho k hk
        obtain rfl := Option.some.inj (hwaiting.symm.trans ho)
        exact (h.waits _ hwaiting k hk).of_eq rfl rfl rfl (fun _ => rfl) (hread hop)
  · exact h

theorem Coherent.step (h : Coherent settings runtime start sys) {action : Action}
    (ha : sys.Allowed action) : Coherent settings runtime start (sys.step settings runtime action) := by
  cases action with
  | call op => exact h.call op ha
  | arrive => exact h.arrive
  | iterate => exact h.iterate ((settings.threaded Connection.transport runtime).step_stepped _)
  | readRouted => exact h.readRouted
  | timeout => exact h.timeout

theorem Coherent.run (h : Coherent settings runtime start sys) {actions : List Action}
    (ha : AllAllowed settings runtime sys actions) :
    Coherent settings runtime start (sys.run settings runtime actions) := by
  induction actions generalizing sys with
  | nil => exact h
  | cons action actions ih => exact ih (h.step ha.1) ha.2

theorem coherent_start (settings : Settings) (runtime : Runtime H) (hw : H) (fuel : Option UInt64)
    (stopHook startHook : Option (W → W)) (world : W) :
    Coherent settings runtime (.new hw fuel) (.start (.new hw fuel stopHook startHook world)) := by
  have htracks : Tracks Balanced (Ledger.new hw fuel)
      (Receiver.start ⟨[], []⟩ (ThreadedExecutor.new hw fuel stopHook startHook world)) :=
    ⟨ThreadedExecutor.simulates_new hw fuel stopHook startHook world, rfl⟩
  exact ⟨rfl, by simp [System.start], rfl, rfl, ⟨htracks, rfl, rfl, rfl⟩, by simp [System.start],
    by simp [System.start], by simp [Correct, System.start]⟩

-- In every run, with whatever time-outs, in which a waiting method is only called
-- once nothing of an earlier request of its kind is left, each method that returns
-- has the answer to its own request.
theorem returns_own_answer (settings : Settings) (runtime : Runtime H) (hw : H) (fuel : Option UInt64)
    (stopHook startHook : Option (W → W)) (world : W) (actions : List Action)
    (h : AllAllowed settings runtime (.start (.new hw fuel stopHook startHook world)) actions) :
    Correct settings runtime (.new hw fuel)
      (System.run settings runtime (.start (.new hw fuel stopHook startHook world)) actions) :=
  ((coherent_start settings runtime hw fuel stopHook startHook world).run h).correct

theorem push_returns_own_answer :
    let actions : List Action :=
      [.call (.push emptyModule), .arrive, .iterate, .iterate, .readRouted]
    let sys : System Unit Unit :=
      System.run openSettings (silentRuntime 2) (.start (.new () none none none ())) actions
    sys.returned.length = 1 ∧ Correct openSettings (silentRuntime 2) (.new () none) sys :=
  ⟨by decide, returns_own_answer openSettings (silentRuntime 2) () none none none () _ (by decide)⟩

-- The first module logs old, every later one new.
def loggingRuntime (duration : Nat) : Runtime Unit := fun n _ hw _ =>
  { outcome := some (hw, .ok [if n = 0 then "old" else "new"]), duration := duration }

-- A push times out; the hot swap that follows returns what the pushed module logged.
theorem hotSwap_returns_old_result :
    let actions : List Action :=
      [.call (.push emptyModule), .arrive, .iterate, .timeout, .call (.hotSwap emptyModule), .arrive,
        .iterate, .iterate, .iterate, .iterate, .iterate, .readRouted]
    let sys : System Unit Unit :=
      System.run openSettings (loggingRuntime 5) (.start (.new () none none none ())) actions
    sys.returned =
        [⟨⟨OP_EXEC_RESULT, some 1⟩, resultPayload { ok := true, logs := ["old"], error := none }⟩] ∧
      answerTo openSettings (loggingRuntime 5) (.new () none) sys.receiver 1 =
        some (resultPayload { ok := true, logs := ["new"], error := none }) ∧
      ¬Correct openSettings (loggingRuntime 5) (.new () none) sys := by
  decide

end System

end Milo.Host

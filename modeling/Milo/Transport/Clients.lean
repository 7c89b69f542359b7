import Milo.Transport.Stream

namespace Milo.Transport

open Milo.Lib Milo.Engine.Link

def Receive.bytes : Receive → Bytes
  | .data chunk => chunk.bytes
  | _ => []

-- The read side of the connection is at its end.
def Receive.hangsUp : Receive → Bool
  | .closed => true
  | .failed _ => true
  | _ => false

namespace TcpServerTransport

-- What a call did, for statements about whole runs: how many clients had been accepted
-- when it returned, what its socket read delivered, and the frame that it returned.
structure Record where
  accepted : Nat
  bytes : Bytes
  hangUp : Bool
  frame : Option Frame
deriving DecidableEq

-- The outcomes of socket reads that lie between two states.
def socketReads (t t' : TcpServerTransport) : List Receive :=
  t.network.receives.take (t.network.receives.length - t'.network.receives.length)

def recordBetween (t t' : TcpServerTransport) (frame : Option Frame) : Record where
  accepted := t'.accepted
  bytes := (socketReads t t').flatMap Receive.bytes
  hangUp := (socketReads t t').any Receive.hangsUp
  frame := frame

def returnedFrame (result : Except Fault (Except LinkError Frame)) : Option Frame :=
  result.toOption.bind (·.toOption)

def record (t : TcpServerTransport) : Call → Record
  | .read => recordBetween t t.readFrame.2 (returnedFrame t.readFrame.1)
  | .write frame => recordBetween t (t.writeFrame frame).2 none

-- The records of a run, up to a call that panics.
def history (t : TcpServerTransport) : List Call → List Record
  | [] => []
  | c :: calls =>
      t.record c ::
        (match t.call c with
          | .ok t' => t'.history calls
          | .error _ => [])

-- Connection i is the i-th one to be accepted, counted from zero. What it has sent so
-- far, the frames returned while it was the last one accepted, and whether a socket
-- read has met its end.
def ofConnection (i : Nat) (records : List Record) : List Record :=
  records.filter fun r => r.accepted = i + 1

def streamOf (i : Nat) (records : List Record) : Bytes := (ofConnection i records).flatMap (·.bytes)

def framesOf (i : Nat) (records : List Record) : List Frame :=
  (ofConnection i records).flatMap (·.frame.toList)

def HungUp (i : Nat) (records : List Record) : Prop := ∃ r ∈ ofConnection i records, r.hangUp = true

section Views

variable {i : Nat} {past : List Record} {r : Record}

theorem ofConnection_snoc_self (h : r.accepted = i + 1) :
    ofConnection i (past ++ [r]) = ofConnection i past ++ [r] := by
  simp [ofConnection, List.filter_append, h]

theorem ofConnection_snoc_other (h : r.accepted ≠ i + 1) :
    ofConnection i (past ++ [r]) = ofConnection i past := by
  simp [ofConnection, List.filter_append, h]

theorem streamOf_snoc_self (h : r.accepted = i + 1) :
    streamOf i (past ++ [r]) = streamOf i past ++ r.bytes := by
  simp [streamOf, ofConnection_snoc_self h]

theorem framesOf_snoc_self (h : r.accepted = i + 1) :
    framesOf i (past ++ [r]) = framesOf i past ++ r.frame.toList := by
  simp [framesOf, ofConnection_snoc_self h]

theorem hungUp_snoc_self (h : r.accepted = i + 1) :
    HungUp i (past ++ [r]) ↔ HungUp i past ∨ r.hangUp = true := by
  simp [HungUp, ofConnection_snoc_self h, or_and_right, exists_or]

theorem streamOf_append (later : List Record) :
    streamOf i (past ++ later) = streamOf i past ++ streamOf i later := by
  simp [streamOf, ofConnection, List.filter_append]

theorem ofConnection_eq_nil (h : ∀ r ∈ past, r.accepted ≤ i) : ofConnection i past = [] := by
  apply List.filter_eq_nil_iff.mpr
  intro r hr
  have := h r hr
  simp only [decide_eq_true_eq]
  omega

end Views

-- The frames returned for a connection are the first complete ones of what it has sent,
-- and all of them when the read side of the connection has come to its end.
structure Faithful (i : Nat) (records : List Record) : Prop where
  parted : framesOf i records <+: completeFrames (streamOf i records)
  whole : HungUp i records → framesOf i records = completeFrames (streamOf i records)

-- What ties the buffer to the connected client's stream.
structure Buffered (i : Nat) (buf : Bytes) (records : List Record) : Prop where
  frames : completeFrames (streamOf i records) = framesOf i records ++ completeFrames buf
  rest : unread (streamOf i records) = unread buf
  ongoing : ¬HungUp i records

structure Follows (t : TcpServerTransport) (past : List Record) : Prop where
  recent : ∀ r ∈ past, r.accepted ≤ t.accepted
  faithful : ∀ i, Faithful i past
  client : ∀ i, t.client = some i → i + 1 = t.accepted ∧ Buffered i t.buf past

theorem follows_bind (network : Network) : (bind network).Follows [] where
  recent := fun r hr => by cases hr
  faithful := fun i => ⟨List.nil_prefix, fun h => by simp [HungUp, ofConnection] at h⟩
  client := fun i h => by cases h

section Step

variable {t t' : TcpServerTransport} {past : List Record} {i : Nat} {r : Record}

theorem Buffered.faithful {buf : Bytes} (h : Buffered i buf past) : Faithful i past where
  parted := ⟨completeFrames buf, h.frames.symm⟩
  whole := fun hup => absurd hup h.ongoing

theorem Faithful.snoc_other (h : Faithful i past) (hr : r.accepted ≠ i + 1) :
    Faithful i (past ++ [r]) := by
  have hsame : ofConnection i (past ++ [r]) = ofConnection i past := ofConnection_snoc_other hr
  constructor
  · simp only [framesOf, streamOf, hsame]
    exact h.parted
  · simp only [framesOf, streamOf, HungUp, hsame]
    exact h.whole

-- A record without bytes, hang-up and frame.
def Quiet (r : Record) : Prop := r.bytes = [] ∧ r.hangUp = false ∧ r.frame = none

theorem quiet_views (i : Nat) (past : List Record) (hq : Quiet r) :
    streamOf i (past ++ [r]) = streamOf i past ∧ framesOf i (past ++ [r]) = framesOf i past ∧
      (HungUp i (past ++ [r]) ↔ HungUp i past) := by
  obtain ⟨hbytes, hup, hframe⟩ := hq
  by_cases hr : r.accepted = i + 1
  · rw [streamOf_snoc_self hr, framesOf_snoc_self hr, hungUp_snoc_self hr, hbytes, hup, hframe]
    simp
  · have hsame : ofConnection i (past ++ [r]) = ofConnection i past := ofConnection_snoc_other hr
    simp only [streamOf, framesOf, HungUp, hsame]
    exact ⟨trivial, trivial, trivial⟩

-- Nothing comes in and nothing goes out; at most the client is dropped.
theorem Follows.quiet (h : t.Follows past) (hq : Quiet r) (hr : r.accepted = t'.accepted)
    (ha : t'.accepted = t.accepted)
    (hc : t'.client = none ∨ t'.client = t.client ∧ t'.buf = t.buf) : t'.Follows (past ++ [r]) where
  recent := by
    intro r' hr'
    rcases List.mem_append.mp hr' with hr' | hr'
    · exact ha ▸ h.recent r' hr'
    · rw [List.mem_singleton.mp hr', hr]
  faithful := by
    intro i
    obtain ⟨hstream, hframes, hup⟩ := quiet_views i past hq
    constructor
    · rw [hstream, hframes]
      exact (h.faithful i).parted
    · rw [hstream, hframes, hup]
      exact (h.faithful i).whole
  client := by
    intro i hi
    rcases hc with hc | ⟨hc, hbuf⟩
    · rw [hc] at hi
      cases hi
    · obtain ⟨hlast, hb⟩ := h.client i (hc ▸ hi)
      obtain ⟨hstream, hframes, hup⟩ := quiet_views i past hq
      refine ⟨hlast.trans ha.symm, ?_, ?_, ?_⟩
      · rw [hstream, hframes, hbuf]
        exact hb.frames
      · rw [hstream, hbuf]
        exact hb.rest
      · rw [hup]
        exact hb.ongoing

-- The client's bytes come in and a frame of its buffer goes out.
theorem Follows.took (h : t.Follows past) (hi : t.client = some i) (hi' : t'.client = some i)
    (hr : r.accepted = t.accepted) (ha : t'.accepted = t.accepted) (hup : r.hangUp = false)
    (hframes : completeFrames (t.buf ++ r.bytes) = r.frame.toList ++ completeFrames t'.buf)
    (hrest : unread (t.buf ++ r.bytes) = unread t'.buf) : t'.Follows (past ++ [r]) := by
  obtain ⟨hlast, hb⟩ := h.client i hi
  have hself : r.accepted = i + 1 := hr.trans hlast.symm
  have hbuffered : Buffered i t'.buf (past ++ [r]) := by
    refine ⟨?_, ?_, ?_⟩
    · rw [streamOf_snoc_self hself, framesOf_snoc_self hself, completeFrames_append, hb.frames, hb.rest,
        List.append_assoc, ← completeFrames_append, hframes, List.append_assoc]
    · rw [streamOf_snoc_self hself, unread_append, hb.rest, ← unread_append, hrest]
    · rw [hungUp_snoc_self hself, hup]
      simpa using hb.ongoing
  refine ⟨?_, ?_, ?_⟩
  · intro r' hr'
    rcases List.mem_append.mp hr' with hr' | hr'
    · exact ha ▸ h.recent r' hr'
    · rw [List.mem_singleton.mp hr', hr, ha]
  · intro j
    by_cases hj : r.accepted = j + 1
    · obtain rfl : j = i := by omega
      exact hbuffered.faithful
    · exact (h.faithful j).snoc_other hj
  · intro j hj
    obtain rfl := Option.some.inj (hi'.symm.trans hj)
    exact ⟨hlast.trans ha.symm, hbuffered⟩

-- The client hangs up when none of its complete frames is left in the buffer.
theorem Follows.hungUp (h : t.Follows past) (hi : t.client = some i) (hc : t'.client = none)
    (hr : r.accepted = t.accepted) (ha : t'.accepted = t.accepted) (hbytes : r.bytes = [])
    (hframe : r.frame = none) (hbuf : completeFrames t.buf = []) : t'.Follows (past ++ [r]) := by
  obtain ⟨hlast, hb⟩ := h.client i hi
  have hself : r.accepted = i + 1 := hr.trans hlast.symm
  have hall : framesOf i (past ++ [r]) = completeFrames (streamOf i (past ++ [r])) := by
    rw [streamOf_snoc_self hself, framesOf_snoc_self hself, hbytes, hframe, Option.toList_none,
      List.append_nil, List.append_nil, hb.frames, hbuf, List.append_nil]
  refine ⟨?_, ?_, ?_⟩
  · intro r' hr'
    rcases List.mem_append.mp hr' with hr' | hr'
    · exact ha ▸ h.recent r' hr'
    · rw [List.mem_singleton.mp hr', hr, ha]
  · intro j
    by_cases hj : r.accepted = j + 1
    · obtain rfl : j = i := by omega
      exact ⟨hall ▸ List.prefix_rfl, fun _ => hall⟩
    · exact (h.faithful j).snoc_other hj
  · intro j hj
    rw [hc] at hj
    cases hj

theorem accept_receives (n : Network) : n.accept.2.receives = n.receives := by
  unfold Network.accept
  split <;> rfl

theorem ensureClient_receives (t : TcpServerTransport) :
    t.ensureClient.2.network.receives = t.network.receives := by
  have h := accept_receives t.network
  unfold ensureClient
  split
  · rfl
  · split <;> rename_i ha <;> rw [ha] at h <;> exact h

-- A new client starts with an empty stream, an empty buffer and no frame.
theorem Follows.ensureClient (h : t.Follows past) : t.ensureClient.2.Follows past := by
  cases hc : t.client with
  | some i =>
      have hne : t.client ≠ none := by rw [hc]; exact Option.some_ne_none i
      rwa [ensureClient_of_client hne]
  | none =>
      have hnobody : ∀ network, Follows { t with client := none, network := network } past :=
        fun network => ⟨h.recent, h.faithful, fun i hi => by cases hi⟩
      unfold TcpServerTransport.ensureClient
      rw [hc]
      dsimp only
      split
      · rename_i network _
        refine ⟨fun r hr => Nat.le_succ_of_le (h.recent r hr), h.faithful, fun i hi => ?_⟩
        obtain rfl := Option.some.inj hi
        have hnil := ofConnection_eq_nil h.recent
        refine ⟨rfl, ?_, ?_, ?_⟩
        · simp only [streamOf, framesOf, hnil, List.flatMap_nil, List.nil_append]
        · simp only [streamOf, hnil, List.flatMap_nil]
        · simp [HungUp, hnil]
      · exact hnobody _
      · exact hnobody _

theorem socketReads_of_eq (h : t'.network.receives = t.network.receives) : socketReads t t' = [] := by
  rw [socketReads, h, Nat.sub_self, List.take_zero]

theorem socketReads_of_cons {outcome : Receive}
    (h : t.network.receives = outcome :: t'.network.receives) : socketReads t t' = [outcome] := by
  rw [socketReads, h, List.length_cons, Nat.add_sub_cancel_left, List.take_succ_cons, List.take_zero]

theorem readSocket_state (t : TcpServerTransport) :
    t.readSocket.2.network = t.network.receive.2 ∧ t.readSocket.2.accepted = t.accepted := by
  unfold readSocket
  split
  · rename_i hr
    exact ⟨congrArg Prod.snd hr.symm, rfl⟩
  · rename_i chunk network hr
    have hnetwork := congrArg Prod.snd hr.symm
    cases hb : bufferHead (t.buf ++ chunk.bytes) with
    | short =>
        simp only [takeFrame, hb]
        exact ⟨hnetwork, trivial⟩
    | oversized =>
        simp only [takeFrame, hb]
        exact ⟨hnetwork, rfl⟩
    | frame frame rest =>
        simp only [takeFrame, hb]
        exact ⟨hnetwork, trivial⟩
  · rename_i hr
    exact ⟨congrArg Prod.snd hr.symm, rfl⟩
  · rename_i hr
    exact ⟨congrArg Prod.snd hr.symm, rfl⟩

-- The record of a socket read is that of its outcome.
theorem record_readSocket (t : TcpServerTransport) (frame : Option Frame) :
    recordBetween t t.readSocket.2 frame =
      { accepted := t.accepted, bytes := t.network.receive.1.bytes,
        hangUp := t.network.receive.1.hangsUp, frame := frame } := by
  obtain ⟨hnetwork, haccepted⟩ := t.readSocket_state
  unfold recordBetween
  rw [haccepted]
  cases hr : t.network.receives with
  | nil =>
      have hreceive : t.network.receive = (.idle, t.network) := by rw [Network.receive, hr]
      have hreads : socketReads t t.readSocket.2 = [] :=
        socketReads_of_eq (by rw [hnetwork, hreceive])
      rw [hreads, hreceive]
      rfl
  | cons outcome receives =>
      have hreceive : t.network.receive = (outcome, { t.network with receives := receives }) := by
        rw [Network.receive, hr]
      have hreads : socketReads t t.readSocket.2 = [outcome] :=
        socketReads_of_cons (by rw [hnetwork, hreceive, hr])
      rw [hreads, hreceive]
      simp

-- What the socket read of a connected client with no complete frame in its buffer does.
theorem Follows.readSocket (h : t.Follows past) (hi : t.client = some i)
    (hshort : bufferHead t.buf = .short)
    (hover : ¬Overlong (streamOf i (past ++
      [recordBetween t t.readSocket.2 t.readSocket.1.toOption]))) :
    t.readSocket.2.Follows (past ++ [recordBetween t t.readSocket.2 t.readSocket.1.toOption]) := by
  have hnone : completeFrames t.buf = [] := Framing.items_of_none (headFrame_of_short hshort)
  obtain ⟨hlast, hb⟩ := h.client i hi
  rw [record_readSocket] at hover ⊢
  rw [streamOf_snoc_self hlast.symm, Overlong, unread_append, hb.rest, ← unread_append] at hover
  unfold TcpServerTransport.readSocket
  cases hr : t.network.receive with
  | mk outcome network =>
      rw [hr] at hover
      cases outcome with
      | idle => exact h.quiet ⟨rfl, rfl, rfl⟩ rfl rfl (.inr ⟨rfl, rfl⟩)
      | closed => exact h.hungUp hi rfl rfl rfl rfl rfl hnone
      | failed text => exact h.hungUp hi rfl rfl rfl rfl rfl hnone
      | data chunk =>
          dsimp only at hover ⊢
          cases hbuf : bufferHead (t.buf ++ chunk.bytes) with
          | short =>
              simp only [takeFrame, hbuf]
              exact h.took hi hi rfl rfl rfl rfl rfl
          | oversized =>
              simp only [Receive.bytes, unread_of_oversized hbuf] at hover
              exact absurd hbuf hover
          | frame frame rest =>
              have hnext := bufferHead_eq_frame.mp hbuf
              simp only [takeFrame, hbuf]
              exact h.took hi hi rfl rfl rfl (framing_link.items_of_some hnext)
                (framing_link.leftover_of_some hnext)

theorem recordBetween_of_receives (h : t'.network.receives = t.network.receives)
    (frame : Option Frame) :
    recordBetween t t' frame = { accepted := t'.accepted, bytes := [], hangUp := false, frame := frame } := by
  rw [recordBetween, socketReads_of_eq h]
  rfl

-- A record of the call is one of what happens after the client has been ensured.
theorem recordBetween_ensureClient (t' : TcpServerTransport) (frame : Option Frame) :
    recordBetween t t' frame = recordBetween t.ensureClient.2 t' frame := by
  simp only [recordBetween, socketReads, t.ensureClient_receives]

theorem Follows.not_stale (h : t.Follows past) (hover : ∀ i, ¬Overlong (streamOf i past)) : ¬t.Stale := by
  rintro ⟨hc, hb⟩
  obtain ⟨i, hi⟩ := Option.ne_none_iff_exists'.mp hc
  have hrest := (h.client i hi).2.rest
  rw [unread_of_oversized hb] at hrest
  exact hover i (by rwa [Overlong, hrest])

theorem Follows.readFrame (h : t.Follows past)
    (hover : ∀ i, ¬Overlong (streamOf i (past ++ [t.record .read]))) :
    (∃ outcome, t.readFrame.1 = .ok outcome) ∧
      t.readFrame.2.Follows (past ++ [t.record .read]) := by
  have hpast : ∀ i, ¬Overlong (streamOf i past) := fun i ho =>
    hover i (by rw [streamOf_append]; exact (ho.append _).1)
  have he := h.ensureClient
  have hstale := he.not_stale hpast
  cases ho : t.ensureClient.1 with
  | error e =>
      have hrecord : t.record .read =
          { accepted := t.ensureClient.2.accepted, bytes := [], hangUp := false, frame := none } := by
        rw [record, readFrame_of_error ho]
        exact recordBetween_of_receives t.ensureClient_receives none
      rw [hrecord, readFrame_of_error ho]
      exact ⟨⟨_, rfl⟩, he.quiet ⟨rfl, rfl, rfl⟩ rfl rfl (.inr ⟨rfl, rfl⟩)⟩
  | ok u =>
      obtain ⟨i, hi⟩ := Option.ne_none_iff_exists'.mp (ensureClient_client ho)
      cases hb : bufferHead t.ensureClient.2.buf with
      | oversized => exact absurd ⟨ensureClient_client ho, hb⟩ hstale
      | frame frame rest =>
          have hrecord : t.record .read =
              { accepted := t.ensureClient.2.accepted, bytes := [], hangUp := false,
                frame := some frame } := by
            rw [record, readFrame_of_frame ho hb]
            exact recordBetween_of_receives t.ensureClient_receives (some frame)
          have hnext := bufferHead_eq_frame.mp hb
          rw [hrecord, readFrame_of_frame ho hb]
          refine ⟨⟨_, rfl⟩, he.took hi hi rfl rfl rfl ?_ ?_⟩
          · rw [List.append_nil]
            exact framing_link.items_of_some hnext
          · rw [List.append_nil]
            exact framing_link.leftover_of_some hnext
      | short =>
          have hread := readFrame_of_short ho (ensureClient_client ho) hb
          have hrecord : t.record .read = recordBetween t.ensureClient.2 t.ensureClient.2.readSocket.2
              t.ensureClient.2.readSocket.1.toOption := by
            rw [record, hread, recordBetween_ensureClient]
            rfl
          rw [hrecord] at hover ⊢
          rw [hread]
          exact ⟨⟨_, rfl⟩, he.readSocket hi hb (hover i)⟩

theorem Follows.writeFrame (h : t.Follows past) (frame : Frame) :
    (t.writeFrame frame).2.Follows (past ++ [t.record (.write frame)]) := by
  have hkept : ∀ network, network.receives = t.network.receives →
      ∀ t' : TcpServerTransport, t'.network = network → t'.accepted = t.accepted →
        (t'.client = none ∨ t'.client = t.client ∧ t'.buf = t.buf) →
        t'.Follows (past ++ [recordBetween t t' none]) := by
    intro network hnetwork t' ht' ha hc
    rw [recordBetween_of_receives (by rw [ht', hnetwork])]
    exact h.quiet ⟨rfl, rfl, rfl⟩ rfl ha hc
  have hsend : t.network.send.2.receives = t.network.receives := by
    unfold Network.send
    split <;> rfl
  unfold record TcpServerTransport.writeFrame
  split
  · exact hkept _ rfl t rfl rfl (.inr ⟨rfl, rfl⟩)
  · split
    · rename_i hn
      rw [hn] at hsend
      exact hkept _ hsend _ rfl rfl (.inr ⟨rfl, rfl⟩)
    · rename_i hn
      rw [hn] at hsend
      exact hkept _ hsend _ rfl rfl (.inl rfl)

end Step

-- A run over streams without an over-long header gets through, and what it returns for
-- each connection follows that connection's stream.
theorem Follows.run {t : TcpServerTransport} {past : List Record} (h : t.Follows past)
    (calls : List Call) (hover : ∀ i, ¬Overlong (streamOf i (past ++ t.history calls))) :
    ∃ t', t.runCalls calls = .ok t' ∧ t'.Follows (past ++ t.history calls) := by
  induction calls generalizing t past with
  | nil => exact ⟨t, rfl, by rwa [history, List.append_nil]⟩
  | cons c calls ih =>
      have hnext : ∃ t', t.call c = .ok t' ∧ t'.Follows (past ++ [t.record c]) := by
        cases c with
        | write frame => exact ⟨_, rfl, h.writeFrame frame⟩
        | read =>
            have hfirst : ∀ i, ¬Overlong (streamOf i (past ++ [t.record .read])) := by
              intro i ho
              apply hover i
              rw [history, List.append_cons, streamOf_append]
              exact (ho.append _).1
            obtain ⟨⟨outcome, hread⟩, hfollows⟩ := h.readFrame hfirst
            exact ⟨_, by rw [call, hread]; rfl, hfollows⟩
      obtain ⟨t', hcall, hfollows⟩ := hnext
      have hhistory : past ++ t.history (c :: calls) = (past ++ [t.record c]) ++ t'.history calls := by
        rw [history, hcall, List.append_cons]
      rw [hhistory] at hover ⊢
      obtain ⟨t'', hrun, hend⟩ := ih hfollows hover
      exact ⟨t'', by rw [runCalls, hcall]; exact hrun, hend⟩

theorem takeFrame_accepted (t : TcpServerTransport) : t.takeFrame.2.accepted = t.accepted := by
  unfold takeFrame
  split <;> rfl

theorem readFrame_accepted (t : TcpServerTransport) :
    t.readFrame.2.accepted = t.ensureClient.2.accepted := by
  have htake := t.ensureClient.2.takeFrame_accepted
  unfold readFrame
  generalize t.ensureClient = pair at htake ⊢
  obtain ⟨outcome, t'⟩ := pair
  cases outcome with
  | error e => rfl
  | ok u =>
      dsimp only at htake ⊢
      split
      · rename_i ht
        rw [ht] at htake
        exact htake
      · rename_i t'' ht
        rw [ht] at htake
        split
        · exact htake
        · exact (t''.readSocket_state.2).trans htake

theorem accepted_le_record (t : TcpServerTransport) (c : Call) : t.accepted ≤ (t.record c).accepted := by
  cases c with
  | write frame =>
      change t.accepted ≤ (t.writeFrame frame).2.accepted
      unfold writeFrame
      split
      · exact Nat.le_refl _
      · split <;> exact Nat.le_refl _
  | read =>
      change t.accepted ≤ t.readFrame.2.accepted
      rw [readFrame_accepted]
      unfold ensureClient
      split
      · exact Nat.le_refl _
      · split
        · exact Nat.le_succ _
        · exact Nat.le_refl _
        · exact Nat.le_refl _

theorem call_accepted {t t' : TcpServerTransport} {c : Call} (h : t.call c = .ok t') :
    t'.accepted = (t.record c).accepted := by
  cases c with
  | write frame =>
      obtain rfl := Except.ok.inj h
      rfl
  | read =>
      unfold call at h
      cases hr : t.readFrame.1 with
      | error fault => rw [hr] at h; cases h
      | ok outcome =>
          rw [hr] at h
          obtain rfl := Except.ok.inj h
          rfl

-- The clients are served one after the other.
theorem history_accepted (t : TcpServerTransport) (calls : List Call) :
    (∀ r ∈ t.history calls, t.accepted ≤ r.accepted) ∧
      (t.history calls).Pairwise (fun r r' => r.accepted ≤ r'.accepted) := by
  induction calls generalizing t with
  | nil => exact ⟨by simp [history], .nil⟩
  | cons c calls ih =>
      have hrecord := t.accepted_le_record c
      cases hcall : t.call c with
      | error fault =>
          simp only [history, hcall, List.mem_singleton, forall_eq]
          exact ⟨hrecord, List.pairwise_singleton _ _⟩
      | ok t' =>
          obtain ⟨hle, hpairwise⟩ := ih t'
          rw [call_accepted hcall] at hle
          simp only [history, hcall, List.forall_mem_cons, List.pairwise_cons]
          exact ⟨⟨hrecord, fun r hr => hrecord.trans (hle r hr)⟩, hle, hpairwise⟩

-- Whatever the clients, the cuts, the pauses and the failing writes: without an
-- over-long header the frames returned for a connection are exactly those of a first
-- part of its own stream, and all complete ones once its read side has ended.
theorem frames_of_own_stream (network : Network) (calls : List Call)
    (hover : ∀ i, ¬Overlong (streamOf i ((bind network).history calls))) :
    (∃ t, (bind network).runCalls calls = .ok t) ∧
      ((bind network).history calls).Pairwise (fun r r' => r.accepted ≤ r'.accepted) ∧
      ∀ i, (∃ part, part <+: streamOf i ((bind network).history calls) ∧
          framesOf i ((bind network).history calls) = completeFrames part) ∧
        (HungUp i ((bind network).history calls) →
          framesOf i ((bind network).history calls) =
            completeFrames (streamOf i ((bind network).history calls))) := by
  obtain ⟨t, hrun, hfollows⟩ := (follows_bind network).run calls (by simpa using hover)
  rw [List.nil_append] at hfollows
  refine ⟨⟨t, hrun⟩, (history_accepted _ calls).2, fun i => ⟨?_, (hfollows.faithful i).whole⟩⟩
  obtain ⟨part, hpart, hitems⟩ := framing_link.exists_part (hfollows.faithful i).parted
  exact ⟨part, hpart, hitems.symm⟩

-- One client leaves in the middle of a frame, the next one asks for discovery.
def twoClients : Network where
  accepts := [.client, .client]
  receives :=
    [.data ⟨[0x01, 0x00, 0x00, 0x00, 0x00, 0x02, 0x00], by decide, by decide⟩, .idle, .closed,
      .data ⟨[0x01, 0x00, 0x00], by decide, by decide⟩, .data ⟨[0x00, 0x00], by decide, by decide⟩]
  sends := []

def fiveReads : List Record := (bind twoClients).history [.read, .read, .read, .read, .read]

theorem fiveReads_not_overlong (i : Nat) : ¬Overlong (streamOf i fiveReads) := by
  have hrecent : ∀ r ∈ fiveReads, r.accepted ≤ 2 := by decide
  rcases i with _ | _ | i
  · decide
  · decide
  · have hnil : ofConnection (i + 2) fiveReads = [] :=
      ofConnection_eq_nil fun r hr => (hrecent r hr).trans (by omega)
    rw [streamOf, hnil]
    decide

theorem frames_of_own_stream_twoClients :
    framesOf 0 fiveReads = completeFrames (streamOf 0 fiveReads) :=
  ((frames_of_own_stream twoClients [.read, .read, .read, .read, .read]
    fiveReads_not_overlong).2.2 0).2 (by unfold HungUp; decide)

end TcpServerTransport

end Milo.Transport

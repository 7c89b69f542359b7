import Milo.Transport

namespace Milo.Transport.TcpServerTransport

open Milo.Lib Milo.Rust Milo.Engine.Link

-- What the main loop calls on the transport.
inductive Call where
  | read
  | write (frame : Frame)

-- One call; the run of the receiver ends with the first one that panics.
def call (t : TcpServerTransport) : Call → Except Fault TcpServerTransport
  | .read => t.readFrame.1.map fun _ => t.readFrame.2
  | .write frame => .ok (t.writeFrame frame).2

def runCalls (t : TcpServerTransport) : List Call → Except Fault TcpServerTransport
  | [] => .ok t
  | c :: calls => t.call c >>= fun t => t.runCalls calls

-- The connected client's buffer starts with a header over the bound.
def Stale (t : TcpServerTransport) : Prop := t.client ≠ none ∧ bufferHead t.buf = .oversized

def NeverStale (t : TcpServerTransport) : List Call → Prop
  | [] => True
  | c :: calls => (c = .read → ¬t.Stale) ∧ ∀ t', t.call c = .ok t' → t'.NeverStale calls

-- What is left of a buffer when its complete frames have been taken off.
def residue (fuel : Nat) (buf : Bytes) : Bytes :=
  match fuel with
  | 0 => buf
  | fuel + 1 =>
      match bufferHead buf with
      | .frame _ rest => residue fuel rest
      | _ => buf

def remainder (buf : Bytes) : Bytes := residue buf.length buf

-- The socket read of this call delivers both the end of a frame and, behind it,
-- the header of an over-long one.
def PackedRead (t : TcpServerTransport) : Prop :=
  ∃ chunk network frame rest, t.ensureClient.1 = .ok () ∧
    t.ensureClient.2.network.receive = (.data chunk, network) ∧
    bufferHead t.ensureClient.2.buf = .short ∧
    bufferHead (t.ensureClient.2.buf ++ chunk.bytes) = .frame frame rest ∧
    bufferHead (remainder rest) = .oversized

def NeverPacked (t : TcpServerTransport) : List Call → Prop
  | [] => True
  | c :: calls => (c = .read → ¬t.PackedRead) ∧ ∀ t', t.call c = .ok t' → t'.NeverPacked calls

theorem residue_of_not_frame {buf : Bytes} (h : ∀ frame rest, bufferHead buf ≠ .frame frame rest)
    (fuel : Nat) : residue fuel buf = buf := by
  cases fuel with
  | zero => rfl
  | succ fuel =>
      simp only [residue]

theorem residue_fuel {fuel fuel' : Nat} {buf : Bytes} (h : buf.length ≤ fuel)
    (h' : buf.length ≤ fuel') : residue fuel buf = residue fuel' buf := by
  induction fuel generalizing fuel' buf with
  | zero =>
      obtain rfl := List.length_eq_zero_iff.mp (Nat.le_zero.mp h)
      exact (residue_of_not_frame (fun _ _ hh => by cases hh) fuel').symm
  | succ fuel ih =>
      cases hb : bufferHead buf with
      | frame frame rest =>
          have hlt := bufferHead_rest_lt hb
          obtain ⟨fuel', rfl⟩ : ∃ n, fuel' = n + 1 := ⟨fuel' - 1, by omega⟩
          simp only [residue, hb]
          exact ih (by omega) (by omega)
      | short =>
          have hn : ∀ frame rest, bufferHead buf ≠ .frame frame rest := fun _ _ hh => by
            rw [hb] at hh; cases hh
          rw [residue_of_not_frame hn, residue_of_not_frame hn]
      | oversized =>
          have hn : ∀ frame rest, bufferHead buf ≠ .frame frame rest := fun _ _ hh => by
            rw [hb] at hh; cases hh
          rw [residue_of_not_frame hn, residue_of_not_frame hn]

theorem remainder_of_frame {buf : Bytes} {frame : Frame} {rest : Bytes}
    (h : bufferHead buf = .frame frame rest) : remainder buf = remainder rest := by
  have hlt := bufferHead_rest_lt h
  unfold remainder
  obtain ⟨n, hn⟩ : ∃ n, buf.length = n + 1 := ⟨buf.length - 1, by omega⟩
  rw [hn]
  simp only [residue, h]
  exact residue_fuel (by omega) (Nat.le_refl _)

theorem remainder_of_not_frame {buf : Bytes} (h : ∀ frame rest, bufferHead buf ≠ .frame frame rest) :
    remainder buf = buf :=
  residue_of_not_frame h _

section ReadFrame

variable {t : TcpServerTransport}

theorem ensureClient_of_client (h : t.client ≠ none) : t.ensureClient = (.ok (), t) := by
  unfold ensureClient
  split
  · rfl
  · contradiction

-- A fresh client starts with an empty buffer.
theorem ensureClient_buf (h : t.client = none) (hok : t.ensureClient.1 = .ok ()) :
    t.ensureClient.2.client ≠ none ∧ t.ensureClient.2.buf = [] := by
  unfold ensureClient at hok ⊢
  rw [h] at hok ⊢
  dsimp only at hok ⊢
  split <;> simp_all

theorem readFrame_of_error {e : LinkError} (h : t.ensureClient.1 = .error e) :
    t.readFrame = (.ok (.error e), t.ensureClient.2) := by
  unfold readFrame
  generalize t.ensureClient = pair at h ⊢
  obtain ⟨outcome, t'⟩ := pair
  cases h
  rfl

theorem readFrame_of_frame {frame : Frame} {rest : Bytes} (h : t.ensureClient.1 = .ok ())
    (hb : bufferHead t.ensureClient.2.buf = .frame frame rest) :
    t.readFrame = (.ok (.ok frame), { t.ensureClient.2 with buf := rest }) := by
  unfold readFrame
  generalize t.ensureClient = pair at h hb ⊢
  obtain ⟨outcome, t'⟩ := pair
  cases h
  dsimp only at hb ⊢
  simp only [takeFrame, hb]

theorem readFrame_of_short (h : t.ensureClient.1 = .ok ()) (hc : t.ensureClient.2.client ≠ none)
    (hb : bufferHead t.ensureClient.2.buf = .short) :
    t.readFrame = (.ok t.ensureClient.2.readSocket.1, t.ensureClient.2.readSocket.2) := by
  unfold readFrame
  generalize t.ensureClient = pair at h hb hc ⊢
  obtain ⟨outcome, t'⟩ := pair
  cases h
  dsimp only at hb hc ⊢
  simp only [takeFrame, hb]
  split
  · contradiction
  · rfl

theorem readFrame_of_oversized (h : t.ensureClient.1 = .ok ())
    (hb : bufferHead t.ensureClient.2.buf = .oversized) :
    t.readFrame.1 = .error .panic := by
  unfold readFrame
  generalize t.ensureClient = pair at h hb ⊢
  obtain ⟨outcome, t'⟩ := pair
  cases h
  dsimp only at hb ⊢
  simp only [takeFrame, hb, dropClient]

theorem ensureClient_client (h : t.ensureClient.1 = .ok ()) : t.ensureClient.2.client ≠ none := by
  cases hc : t.client with
  | none => exact (ensureClient_buf hc h).1
  | some i =>
      have hne : t.client ≠ none := by rw [hc]; exact Option.some_ne_none i
      rwa [ensureClient_of_client hne]

-- The expect fails exactly when the call starts on a stale buffer.
theorem readFrame_panics_iff : (∃ fault, t.readFrame.1 = .error fault) ↔ t.Stale := by
  cases he : t.ensureClient.1 with
  | error e =>
      rw [readFrame_of_error he]
      constructor
      · rintro ⟨fault, h⟩
        cases h
      · rintro ⟨hc, _⟩
        rw [ensureClient_of_client hc] at he
        cases he
  | ok u =>
      have hstale : t.Stale ↔ bufferHead t.ensureClient.2.buf = .oversized := by
        unfold Stale
        cases hc : t.client with
        | none =>
            rw [(ensureClient_buf hc he).2]
            simp [bufferHead]
        | some i =>
            have hne : t.client ≠ none := by rw [hc]; exact Option.some_ne_none i
            rw [ensureClient_of_client hne]
            simp
      rw [hstale]
      cases hb : bufferHead t.ensureClient.2.buf with
      | short => simp [readFrame_of_short he (ensureClient_client he) hb]
      | oversized => simp [readFrame_of_oversized he hb]
      | frame frame rest => simp [readFrame_of_frame he hb]

-- No header over the bound waits behind the frames in the connected client's buffer.
def Fresh (t : TcpServerTransport) : Prop :=
  t.client ≠ none → bufferHead (remainder t.buf) ≠ .oversized

theorem Fresh.not_stale (h : t.Fresh) : ¬t.Stale := by
  rintro ⟨hc, hb⟩
  apply h hc
  rwa [remainder_of_not_frame (fun _ _ hh => by rw [hb] at hh; cases hh)]

theorem fresh_dropClient (network : Network) : (t.dropClient network).Fresh :=
  fun h => absurd rfl h

theorem Fresh.ensureClient (h : t.Fresh) : t.ensureClient.2.Fresh := by
  cases hc : t.client with
  | some i =>
      have hne : t.client ≠ none := by rw [hc]; exact Option.some_ne_none i
      rwa [ensureClient_of_client hne]
  | none =>
      cases he : t.ensureClient.1 with
      | ok u =>
          intro _
          rw [(ensureClient_buf hc he).2]
          simp [remainder, residue, bufferHead]
      | error e =>
          intro hne
          unfold TcpServerTransport.ensureClient at he hne
          rw [hc] at he hne
          dsimp only at he hne
          split at hne <;> simp_all

-- Only a packed read puts a header over the bound behind a frame; alone at the
-- head it makes take_frame drop the client.
theorem Fresh.readSocket (h : t.Fresh)
    (hp : ∀ chunk network frame rest, t.network.receive = (.data chunk, network) →
      bufferHead (t.buf ++ chunk.bytes) = .frame frame rest →
      bufferHead (remainder rest) ≠ .oversized) : t.readSocket.2.Fresh := by
  cases hr : t.network.receive with
  | mk outcome network =>
      cases outcome with
      | closed =>
          simp only [TcpServerTransport.readSocket, hr]
          exact fresh_dropClient network
      | idle =>
          simp only [TcpServerTransport.readSocket, hr]
          exact h
      | failed text =>
          simp only [TcpServerTransport.readSocket, hr]
          exact fresh_dropClient network
      | data chunk =>
          cases hbuf : bufferHead (t.buf ++ chunk.bytes) with
          | short =>
              simp only [TcpServerTransport.readSocket, hr, takeFrame, hbuf]
              intro _
              rw [remainder_of_not_frame (fun _ _ hh => by
                dsimp only at hh; rw [hbuf] at hh; cases hh)]
              dsimp only
              rw [hbuf]
              exact fun hh => by cases hh
          | oversized =>
              simp only [TcpServerTransport.readSocket, hr, takeFrame, hbuf]
              exact fresh_dropClient network
          | frame frame rest =>
              simp only [TcpServerTransport.readSocket, hr, takeFrame, hbuf]
              exact fun _ => hp chunk network frame rest hr hbuf

theorem Fresh.readFrame (h : t.Fresh) (hp : ¬t.PackedRead) : t.readFrame.2.Fresh := by
  have he := h.ensureClient
  cases ho : t.ensureClient.1 with
  | error e => rwa [readFrame_of_error ho]
  | ok u =>
      cases hb : bufferHead t.ensureClient.2.buf with
      | short =>
          rw [readFrame_of_short ho (ensureClient_client ho) hb]
          apply he.readSocket
          intro chunk network frame rest hr hbuf ho'
          exact hp ⟨chunk, network, frame, rest, ho, hr, hb, hbuf, ho'⟩
      | oversized =>
          exact absurd hb (by
            have := he (ensureClient_client ho)
            rwa [remainder_of_not_frame (fun _ _ hh => by rw [hb] at hh; cases hh)] at this)
      | frame frame rest =>
          rw [readFrame_of_frame ho hb]
          intro _
          rw [← remainder_of_frame hb]
          exact he (ensureClient_client ho)

theorem Fresh.writeFrame (h : t.Fresh) (frame : Frame) : (t.writeFrame frame).2.Fresh := by
  unfold TcpServerTransport.writeFrame
  split
  · exact h
  · split
    · exact h
    · exact fresh_dropClient _

end ReadFrame

theorem call_eq_ok_iff (t : TcpServerTransport) (c : Call) :
    (∃ t', t.call c = .ok t') ↔ (c = .read → ¬t.Stale) := by
  cases c with
  | read =>
      rw [← readFrame_panics_iff]
      cases h : t.readFrame.1 <;> simp [call, h, Except.map]
  | write frame => simp [call]

theorem Fresh.call {t t' : TcpServerTransport} {c : Call} (h : t.Fresh)
    (hp : c = .read → ¬t.PackedRead) (hc : t.call c = .ok t') : t'.Fresh := by
  cases c with
  | read =>
      have hf := h.readFrame (hp rfl)
      simp only [TcpServerTransport.call] at hc
      cases ho : t.readFrame.1 with
      | error fault => simp [ho, Except.map] at hc
      | ok outcome =>
          simp only [ho, Except.map, Except.ok.injEq] at hc
          rwa [← hc]
  | write frame =>
      obtain rfl := Except.ok.inj hc
      exact h.writeFrame frame

theorem runCalls_eq_ok_iff (t : TcpServerTransport) (calls : List Call) :
    (∃ t', t.runCalls calls = .ok t') ↔ t.NeverStale calls := by
  induction calls generalizing t with
  | nil => simp [runCalls, NeverStale]
  | cons c calls ih =>
      simp only [runCalls, NeverStale, bind_eq_ok, ← call_eq_ok_iff]
      constructor
      · rintro ⟨t₂, t₁, hc, hr⟩
        refine ⟨⟨t₁, hc⟩, fun t' hc' => ?_⟩
        obtain rfl := Except.ok.inj (hc.symm.trans hc')
        exact (ih t₁).mp ⟨t₂, hr⟩
      · rintro ⟨⟨t₁, hc⟩, hnext⟩
        obtain ⟨t₂, hr⟩ := (ih t₁).mpr (hnext t₁ hc)
        exact ⟨t₂, t₁, hc, hr⟩

theorem Fresh.neverStale {t : TcpServerTransport} (h : t.Fresh) (calls : List Call)
    (hp : t.NeverPacked calls) : t.NeverStale calls := by
  induction calls generalizing t with
  | nil => trivial
  | cons c calls ih =>
      exact ⟨fun _ => h.not_stale, fun t' hc => ih (h.call hp.1 hc) (hp.2 t' hc)⟩

-- A run of the receiver gets past every read_frame if and only if none of them
-- starts on a stale buffer, and none does while no socket read packs the end of a
-- frame and an over-long header together.
theorem read_frame_returns_iff (network : Network) (calls : List Call) :
    ((∃ t, (bind network).runCalls calls = .ok t) ↔ (bind network).NeverStale calls) ∧
      ((bind network).NeverPacked calls → (bind network).NeverStale calls) :=
  ⟨runCalls_eq_ok_iff _ calls, Fresh.neverStale (fun h => absurd rfl h) calls⟩

-- A discovery frame and the header of a push over the bound in one socket read.
def packedChunk : Chunk where
  bytes := [0x01, 0x00, 0x00, 0x00, 0x00, 0x02, 0x00, 0x08, 0x00, 0x01]
  pos := by decide
  le := by decide

theorem read_frame_panics :
    ¬∃ t, (bind { accepts := [.client], receives := [.data packedChunk], sends := [] }).runCalls
      [.read, .read] = .ok t := by
  rintro ⟨t, h⟩
  cases h

end Milo.Transport.TcpServerTransport

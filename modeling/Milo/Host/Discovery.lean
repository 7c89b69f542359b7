import Milo.Host.Results

namespace Milo.Host

open Milo.Engine.Link Milo.MainLoop

-- What json.loads does with a payload: JSONDecodeError is the exception that
-- request_discovery catches.
inductive Loaded (J : Type) where
  | value (v : J)
  | decodeError
  | raised

inductive DiscoveryError where
  | link (e : ReadError)
  | json

namespace Session

variable {J : Type}

def readFrame (s : Session J) : Except ReadError Frame × Session J :=
  match s.reads with
  | [] => (.error (.timeoutError "timed out"), s)
  | outcome :: reads => (outcome, { s with reads := reads })

def discoveryFrame : Frame := { opcode := OP_DISCOVERY, payload := [] }

-- One frame is read in each of the attempts.
def requestDiscovery (loads : Bytes → Loaded J) :
    Nat → Session J → Except DiscoveryError (Option J) × Session J
  | 0, s => (.ok none, s)
  | retries + 1, s =>
      match s.writeFrame discoveryFrame with
      | (.error e, s) => (.error (.link e), s)
      | (.ok (), s) =>
          match s.readFrame with
          | (.error (.timeoutError _), s) => requestDiscovery loads retries s
          | (.error (.hungUp hangUp), s) => (.error (.link (.hungUp hangUp)), s)
          | (.ok frame, s) =>
              if frame.opcode = OP_DISCOVERY then
                match loads frame.payload with
                | .value v => (.ok (some v), s)
                | .decodeError => requestDiscovery loads retries s
                | .raised => (.error .json, s)
              else requestDiscovery loads retries s

def discover (loads : Bytes → Loaded J) (retries : Nat) (s : Session J) :
    Except DiscoveryError (Option J) × Session J :=
  match requestDiscovery loads retries s with
  | (.ok manifest, s) => (.ok manifest, { s with manifest := manifest })
  | (.error e, s) => (.error e, s)

-- The outcome of a read that is the last one of a discovery.
def Ends (loads : Bytes → Loaded J) : Except ReadError Frame → Prop
  | .error (.timeoutError _) => False
  | .error (.hungUp _) => True
  | .ok frame => frame.opcode = OP_DISCOVERY ∧ loads frame.payload ≠ .decodeError

-- Attempt k comes to its read: it has written its request, as had the ones before, and
-- these have not been the last.
def Reached (loads : Bytes → Loaded J) (reads : List (Except ReadError Frame))
    (writes : List (Except HangUp Unit)) (k : Nat) : Prop :=
  (∀ j ≤ k, ∀ hangUp, writes[j]? ≠ some (.error hangUp)) ∧
    ∀ j < k, ∀ outcome, reads[j]? = some outcome → ¬Ends loads outcome

-- None of the attempts reads a result.
def Quiet (loads : Bytes → Loaded J) (retries : Nat) (reads : List (Except ReadError Frame))
    (writes : List (Except HangUp Unit)) : Prop :=
  ∀ k < retries, Reached loads reads writes k →
    ∀ frame, reads[k]? = some (.ok frame) → frame.opcode ≠ OP_EXEC_RESULT

section Attempt

variable {loads : Bytes → Loaded J} {reads : List (Except ReadError Frame)}
variable {writes : List (Except HangUp Unit)}

theorem reached_zero : Reached loads reads writes 0 ↔ ∀ hangUp, writes[0]? ≠ some (.error hangUp) := by
  simp [Reached]

theorem reached_succ (k : Nat) :
    Reached loads reads writes (k + 1) ↔
      Reached loads reads writes 0 ∧ (∀ outcome, reads[0]? = some outcome → ¬Ends loads outcome) ∧
        Reached loads reads.tail writes.tail k := by
  rw [reached_zero]
  simp only [Reached, List.getElem?_tail]
  constructor
  · rintro ⟨hwrites, hreads⟩
    exact ⟨hwrites 0 (Nat.zero_le _), hreads 0 (Nat.succ_pos k),
      fun j hj => hwrites (j + 1) (Nat.succ_le_succ hj),
      fun j hj => hreads (j + 1) (Nat.succ_lt_succ hj)⟩
  · rintro ⟨hwrite, hread, hwrites, hreads⟩
    constructor
    · intro j hj
      cases j with
      | zero => exact hwrite
      | succ j => exact hwrites j (Nat.le_of_succ_le_succ hj)
    · intro j hj
      cases j with
      | zero => exact hread
      | succ j => exact hreads j (Nat.lt_of_succ_lt_succ hj)

theorem quiet_succ (retries : Nat) :
    Quiet loads (retries + 1) reads writes ↔
      (Reached loads reads writes 0 →
        (∀ frame, reads[0]? = some (.ok frame) → frame.opcode ≠ OP_EXEC_RESULT) ∧
        ((∀ outcome, reads[0]? = some outcome → ¬Ends loads outcome) →
          Quiet loads retries reads.tail writes.tail)) := by
  simp only [Quiet, List.getElem?_tail]
  constructor
  · intro h hzero
    refine ⟨h 0 (Nat.succ_pos _) hzero, fun hends k hk hreached => ?_⟩
    exact h (k + 1) (Nat.succ_lt_succ hk) ((reached_succ k).mpr ⟨hzero, hends, hreached⟩)
  · intro h k hk hreached
    cases k with
    | zero => exact (h hreached).1
    | succ k =>
        obtain ⟨hzero, hends, hrest⟩ := (reached_succ k).mp hreached
        exact (h hzero).2 hends k (Nat.lt_of_succ_lt_succ hk) hrest

theorem writeFrame_cases (loads : Bytes → Loaded J) (s : Session J) (frame : Frame) :
    (∃ hangUp s', s.writeFrame frame = (.error (.hungUp hangUp), s') ∧
      ¬Reached loads s.reads s.writes 0 ∧ s'.reads = s.reads ∧ s'.device = s.device ∧
        s'.consumed = s.consumed) ∨
    ∃ s', s.writeFrame frame = (.ok (), s') ∧ Reached loads s.reads s.writes 0 ∧
      s'.reads = s.reads ∧ s'.writes = s.writes.tail ∧ s'.device = s.device ∧
        s'.consumed = s.consumed := by
  obtain ⟨device, manifest, reads, writes, sent, consumed⟩ := s
  rw [reached_zero]
  cases writes with
  | nil => exact .inr ⟨_, rfl, nofun, rfl, rfl, rfl, rfl⟩
  | cons outcome writes =>
      cases outcome with
      | ok _ => exact .inr ⟨_, rfl, nofun, rfl, rfl, rfl, rfl⟩
      | error hangUp => exact .inl ⟨hangUp, _, rfl, fun h => h hangUp rfl, rfl, rfl, rfl⟩

-- What a discovery reads, and that it hands none of it on.
structure Searched (loads : Bytes → Loaded J) (retries : Nat) (s s' : Session J) : Prop where
  device : s'.device = s.device
  consumed : s'.consumed = s.consumed
  read : ∃ read, s.reads = read ++ s'.reads ∧
    (resultPayloads (framesOf read) = [] ↔ Quiet loads retries s.reads s.writes)

theorem results_cons (outcome : Except ReadError Frame) (read : List (Except ReadError Frame)) :
    resultPayloads (framesOf (outcome :: read)) = [] ↔
      (∀ frame, outcome = .ok frame → frame.opcode ≠ OP_EXEC_RESULT) ∧
        resultPayloads (framesOf read) = [] := by
  cases outcome with
  | error e =>
      have hcons : framesOf (.error e :: read) = framesOf read := rfl
      simp [hcons]
  | ok frame =>
      have hcons : framesOf (.ok frame :: read) = frame :: framesOf read := rfl
      rw [hcons, resultPayloads_cons]
      simp

theorem not_result_of_ends {outcome : Except ReadError Frame} (h : Ends loads outcome) :
    ∀ frame, outcome = .ok frame → frame.opcode ≠ OP_EXEC_RESULT := by
  rintro frame rfl hop
  have hdiscovery : frame.opcode = OP_DISCOVERY := h.1
  rw [hop] at hdiscovery
  exact absurd hdiscovery (by decide)

variable {retries : Nat} {s s₁ s' : Session J} {outcome : Except ReadError Frame}

-- An attempt that has read something, and the ones after it.
theorem Searched.next (h : Searched loads retries s₁ s') (hreached : Reached loads s.reads s.writes 0)
    (hends : ¬Ends loads outcome) (hreads : s.reads = outcome :: s₁.reads)
    (hwrites : s₁.writes = s.writes.tail) (hdevice : s₁.device = s.device)
    (hconsumed : s₁.consumed = s.consumed) : Searched loads (retries + 1) s s' := by
  obtain ⟨read, hread, hquiet⟩ := h.read
  refine ⟨h.device.trans hdevice, h.consumed.trans hconsumed, outcome :: read, ?_, ?_⟩
  · rw [hreads, hread, List.cons_append]
  · have hnext : ∀ outcome', s.reads[0]? = some outcome' → ¬Ends loads outcome' := by
      intro outcome' hsome
      rw [hreads] at hsome
      exact Option.some.inj hsome ▸ hends
    rw [quiet_succ, results_cons, hquiet, hwrites, hreads, List.tail_cons]
    rw [hreads] at hreached hnext
    constructor
    · rintro ⟨hhead, hrest⟩ _
      exact ⟨fun frame hsome => hhead frame (Option.some.inj hsome), fun _ => hrest⟩
    · intro hall
      obtain ⟨hhead, hrest⟩ := hall hreached
      exact ⟨fun frame hsome => hhead frame (congrArg some hsome), hrest hnext⟩

theorem Searched.last (hends : Ends loads outcome) (hreads : s.reads = outcome :: s₁.reads)
    (hdevice : s₁.device = s.device) (hconsumed : s₁.consumed = s.consumed) :
    Searched loads (retries + 1) s s₁ := by
  have hhead := not_result_of_ends hends
  refine ⟨hdevice, hconsumed, [outcome], hreads, ?_⟩
  rw [results_cons, quiet_succ, hreads]
  constructor
  · rintro - -
    exact ⟨fun frame hsome => hhead frame (Option.some.inj hsome), fun hnot => absurd hends (hnot _ rfl)⟩
  · exact fun _ => ⟨hhead, rfl⟩

theorem requestDiscovery_searched (loads : Bytes → Loaded J) (retries : Nat) (s : Session J) :
    Searched loads retries s (requestDiscovery loads retries s).2 := by
  induction retries generalizing s with
  | zero => exact ⟨rfl, rfl, [], rfl, iff_of_true rfl (fun k hk => absurd hk (Nat.not_lt_zero k))⟩
  | succ retries ih =>
      unfold requestDiscovery
      rcases writeFrame_cases loads s discoveryFrame with
        ⟨hangUp, s₁, hw, hnot, hreads, hdevice, hconsumed⟩ |
        ⟨s₁, hw, hreached, hreads, hwrites, hdevice, hconsumed⟩
      · rw [hw]
        refine ⟨hdevice, hconsumed, [], hreads.symm, iff_of_true rfl ?_⟩
        rw [quiet_succ]
        exact fun h => absurd h hnot
      · rw [hw]
        cases hr : s.reads with
        | nil =>
            have hread : s₁.readFrame = (.error (.timeoutError "timed out"), s₁) := by
              simp only [readFrame, hreads, hr]
            simp only [hread]
            have h := ih s₁
            obtain ⟨read, hsplit, hquiet⟩ := h.read
            refine ⟨h.device.trans hdevice, h.consumed.trans hconsumed, read, hreads ▸ hsplit, ?_⟩
            rw [hquiet, quiet_succ, hreads, hwrites, hr, List.tail_nil]
            rw [hr] at hreached
            exact ⟨fun hrest _ => ⟨nofun, fun _ => hrest⟩, fun hall => (hall hreached).2 nofun⟩
        | cons outcome reads =>
            have hread : s₁.readFrame = (outcome, { s₁ with reads := reads }) := by
              simp only [readFrame, hreads, hr]
            have hnext (hends : ¬Ends loads outcome) : Searched loads (retries + 1) s
                (requestDiscovery loads retries { s₁ with reads := reads }).2 :=
              (ih { s₁ with reads := reads }).next hreached hends hr hwrites hdevice hconsumed
            have hlast (hends : Ends loads outcome) :
                Searched loads (retries + 1) s { s₁ with reads := reads } :=
              Searched.last hends hr hdevice hconsumed
            simp only [hread]
            cases outcome with
            | error e =>
                cases e with
                | timeoutError text => exact hnext id
                | hungUp hangUp => exact hlast trivial
            | ok frame =>
                dsimp only
                split_ifs with hop
                · cases hl : loads frame.payload with
                  | value v => exact hlast ⟨hop, by rw [hl]; exact nofun⟩
                  | decodeError => exact hnext fun h => h.2 hl
                  | raised => exact hlast ⟨hop, by rw [hl]; exact nofun⟩
                · exact hnext fun h => hop h.1

theorem discover_searched (loads : Bytes → Loaded J) (retries : Nat) (s : Session J) :
    Searched loads retries s (s.discover loads retries).2 := by
  have h := requestDiscovery_searched loads retries s
  unfold discover
  generalize requestDiscovery loads retries s = after at h
  obtain ⟨outcome, after⟩ := after
  cases outcome with
  | error e => exact h
  | ok manifest => exact ⟨h.device, h.consumed, h.read⟩

theorem Searched.keeps_iff (h : Searched loads retries s s') :
    Keeps s s' ↔ Quiet loads retries s.reads s.writes := by
  obtain ⟨read, hread, hquiet⟩ := h.read
  rw [← hquiet]
  constructor
  · rintro ⟨read', hread', hresults⟩
    obtain rfl : read' = read := List.append_cancel_right (hread'.symm.trans hread)
    rw [h.device, h.consumed] at hresults
    exact List.append_right_eq_self.mp hresults.symm
  · intro hnone
    exact ⟨read, hread, by rw [h.device, h.consumed, hnone, List.append_nil]⟩

end Attempt

-- A discovery loses no result, whatever methods are called after it, exactly when none of
-- its attempts reads one.
theorem discover_keeps_iff (loads : Bytes → Loaded J) (retries : Nat) (s : Session J) :
    (∀ ops, Keeps s ((s.discover loads retries).2.run ops)) ↔
      Quiet loads retries s.reads s.writes := by
  rw [← (discover_searched loads retries s).keeps_iff]
  exact ⟨fun h => h [], fun h ops => h.trans (keeps_run _ ops)⟩

-- A manifest with nothing but the name of the board, and what json.loads makes of it.
def boardManifest : Bytes :=
  [0x7B, 0x22, 0x62, 0x6F, 0x61, 0x72, 0x64, 0x22, 0x3A, 0x22, 0x65, 0x73, 0x70, 0x33, 0x32,
    0x63, 0x33, 0x22, 0x7D]

def boardLoads (payload : Bytes) : Loaded Unit :=
  if payload = boardManifest then .value () else .decodeError

-- A module ends before the receiver has answered, and a result is gone.
def resultBeforeManifest : Session Unit :=
  start [.ok { opcode := OP_EXEC_RESULT, payload := [0x31] },
    .ok { opcode := OP_DISCOVERY, payload := boardManifest }] []

theorem resultBeforeManifest_lost :
    ¬(∀ ops, Keeps resultBeforeManifest
      ((resultBeforeManifest.discover boardLoads 3).2.run ops)) ∧
      ((resultBeforeManifest.discover boardLoads 3).2.perform .waitResult).1 =
        .error (.timeoutError "timed out") := by
  refine ⟨fun h => ?_, rfl⟩
  obtain ⟨read, hread, hresults⟩ := h []
  have hlen : resultPayloads (framesOf read) = [] := hresults.symm
  have hall : read = resultBeforeManifest.reads := (List.append_nil read).symm.trans hread.symm
  rw [hall] at hlen
  revert hlen
  decide

end Session

end Milo.Host

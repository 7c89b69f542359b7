import Milo.Runtime

namespace Milo.Runtime

open Milo.Rust

-- The len bytes at ptr are bytes of the memory that the module exports.
def Lies (memory : Option Bytes) (ptr : UInt32) (len : Nat) : Prop :=
  ∃ data, memory = some data ∧ ptr.toNat + len ≤ data.length

theorem lies_some (data : Bytes) (ptr : UInt32) (len : Nat) :
    Lies (some data) ptr len ↔ ptr.toNat + len ≤ data.length := by
  constructor
  · rintro ⟨d, hd, h⟩
    cases hd
    exact h
  · intro h
    exact ⟨data, rfl, h⟩

def bytesAt (data : Bytes) (ptr : UInt32) (len : Nat) : Bytes :=
  (data.take (ptr.toNat + len)).drop ptr.toNat

-- A memory with some of its bytes replaced.
def splice (data : Bytes) (ptr : UInt32) (bytes : Bytes) : Bytes :=
  data.take ptr.toNat ++ bytes ++ data.drop (ptr.toNat + bytes.length)

@[simp] theorem splice_nil (data : Bytes) (ptr : UInt32) : splice data ptr [] = data := by
  simp [splice]

-- The sum of start and length is one of usize, or wraps and is still behind the memory.
def Adds (build : Build) (data : Bytes) (ptr : UInt32) (len : Nat) : Prop :=
  ptr.toNat + len < 2 ^ build.width ∨
    build.overflowChecks = false ∧ data.length < ptr.toNat + len - 2 ^ build.width

instance (build : Build) (data : Bytes) (ptr : UInt32) (len : Nat) :
    Decidable (Adds build data ptr len) := inferInstanceAs (Decidable (_ ∨ _))

section Sums

variable {build : Build} (data : Bytes) (ptr : UInt32) {len : Nat}

-- The end of a range is the sum, or it wraps and lies behind the memory, or the range is
-- inverted or the sum panics.
theorem addUsize_cases (hlen : len < 2 ^ build.width) :
    (Adds build data ptr len ∧ build.addUsize ptr.toNat len = .ok (ptr.toNat + len)) ∨
    (Adds build data ptr len ∧ data.length < ptr.toNat + len ∧
      ∃ stop, build.addUsize ptr.toNat len = .ok stop ∧ data.length < stop) ∨
    (¬Adds build data ptr len ∧ build.addUsize ptr.toNat len = .error .panic) ∨
    (¬Adds build data ptr len ∧
      ∃ stop, build.addUsize ptr.toNat len = .ok stop ∧ stop ≤ data.length ∧ stop < ptr.toNat) := by
  have hptr := build.toNat_lt ptr
  unfold Adds Build.addUsize Build.checkedAdd Rust.add
  rcases Nat.lt_or_ge (ptr.toNat + len) (2 ^ build.width) with hsum | hsum
  · exact .inl ⟨.inl hsum, if_pos hsum⟩
  · rw [if_neg (by omega), Nat.mod_eq_sub_mod hsum, Nat.mod_eq_of_lt (by omega)]
    cases build.overflowChecks with
    | true => exact .inr (.inr (.inl ⟨by simp; omega, rfl⟩))
    | false =>
        rcases Nat.lt_or_ge data.length (ptr.toNat + len - 2 ^ build.width) with hout | hin
        · exact .inr (.inl ⟨.inr ⟨rfl, hout⟩, by omega, _, rfl, hout⟩)
        · exact .inr (.inr (.inr ⟨by omega, _, rfl, hin, by omega⟩))

-- No sum of two u32 wraps where usize is wider.
theorem adds_wide (hwide : 33 ≤ build.width) (hlen : len < 2 ^ 32) : Adds build data ptr len := by
  have hptr := ptr.toNat_lt
  have hpow : 2 ^ 33 ≤ 2 ^ build.width := Nat.pow_le_pow_right (by decide) hwide
  exact .inl (by omega)

-- No slice is longer than isize::MAX bytes, so no end of a range of one wraps.
theorem adds_of_le {data : Bytes} {ptr : UInt32} (hroom : data.length < 2 ^ (build.width - 1))
    (hin : ptr.toNat + len ≤ data.length) : Adds build data ptr len :=
  .inl (Nat.lt_of_le_of_lt hin
    (Nat.lt_of_lt_of_le hroom (Nat.pow_le_pow_right (by decide) (Nat.sub_le _ _))))

-- The range check of log_msg and uart_write, and what they do behind it.
theorem checkedSlice_eq {α : Type} (hlen : len < 2 ^ build.width) (early : α)
    (use : Bytes → Except Fault α) :
    (build.addUsize ptr.toNat len >>= fun stop =>
        if data.length < stop then .ok early else slice data ptr.toNat stop >>= use) =
      if Adds build data ptr len then
        if ptr.toNat + len ≤ data.length then use (bytesAt data ptr len) else .ok early
      else .error .panic := by
  rcases addUsize_cases data ptr hlen with
    ⟨hadds, hstop⟩ | ⟨hadds, hsum, stop, hstop, hout⟩ | ⟨hadds, hpanic⟩ |
      ⟨hadds, stop, hstop, hin, hinverted⟩
  · rw [hstop, if_pos hadds]
    change (if data.length < ptr.toNat + len then _ else _) = _
    rcases Nat.lt_or_ge data.length (ptr.toNat + len) with hout | hin
    · rw [if_pos hout, if_neg (Nat.not_le.mpr hout)]
    · have hslice : slice data ptr.toNat (ptr.toNat + len) = .ok (bytesAt data ptr len) :=
        if_pos ⟨Nat.le_add_right _ _, hin⟩
      rw [if_neg (Nat.not_lt.mpr hin), if_pos hin, hslice]
      rfl
  · rw [hstop, if_pos hadds, if_neg (Nat.not_le.mpr hsum)]
    exact if_pos hout
  · rw [hpanic, if_neg hadds]
    rfl
  · have hslice : slice data ptr.toNat stop = .error .panic := if_neg (by omega)
    rw [hstop, if_neg hadds]
    change (if data.length < stop then _ else _) = _
    rw [if_neg (Nat.not_lt.mpr hin), hslice]
    rfl

-- The range check of uart_read, and what it does behind it.
theorem checkedCopy_eq {α : Type} (src : Bytes) (hsrc : src.length < 2 ^ build.width) (early : α)
    (use : Bytes → Except Fault α) :
    (build.addUsize ptr.toNat src.length >>= fun stop =>
        if stop ≤ data.length then copyFromSlice data ptr.toNat stop src >>= use else .ok early) =
      if Adds build data ptr src.length then
        if ptr.toNat + src.length ≤ data.length then use (splice data ptr src) else .ok early
      else .error .panic := by
  rcases addUsize_cases data ptr hsrc with
    ⟨hadds, hstop⟩ | ⟨hadds, hsum, stop, hstop, hout⟩ | ⟨hadds, hpanic⟩ |
      ⟨hadds, stop, hstop, hin, hinverted⟩
  · rw [hstop, if_pos hadds]
    change (if ptr.toNat + src.length ≤ data.length then _ else _) = _
    split_ifs with hin
    · have hcopy : copyFromSlice data ptr.toNat (ptr.toNat + src.length) src =
          .ok (splice data ptr src) := if_pos ⟨Nat.le_add_right _ _, hin, by omega⟩
      rw [hcopy]
      rfl
    · rfl
  · rw [hstop, if_pos hadds, if_neg (Nat.not_le.mpr hsum)]
    exact if_neg (Nat.not_le.mpr hout)
  · rw [hpanic, if_neg hadds]
    rfl
  · have hcopy : copyFromSlice data ptr.toNat stop src = .error .panic := if_neg (by omega)
    rw [hstop, if_neg hadds]
    change (if stop ≤ data.length then _ else _) = _
    rw [if_pos hin, hcopy]
    rfl

end Sums

section Syscalls

variable {H : Type} (build : Build) (hardware : MiloHardware H) (s : HostState H)

-- What log_msg makes of a message, and uart_write of its bytes.
def logged (bytes : Bytes) : HostState H :=
  match fromUtf8 bytes with
  | some msg => { s with hw := hardware.log s.hw msg, logs := s.logs ++ [msg] }
  | none => s

def written (bus : UInt32) (bytes : Bytes) : Int32 × HostState H :=
  ((hardware.uartWrite s.hw bus bytes).1, { s with hw := (hardware.uartWrite s.hw bus bytes).2 })

theorem logMsg_eq {data : Bytes} (hdata : s.memory = some data) (ptr len : UInt32) :
    logMsg build hardware s ptr len =
      if Adds build data ptr len.toNat then
        if ptr.toNat + len.toNat ≤ data.length then
          .ok (logged hardware s (bytesAt data ptr len.toNat))
        else .ok s
      else .error .panic := by
  have hcheck := checkedSlice_eq data ptr (build.toNat_lt len) s
    fun bytes => .ok (logged hardware s bytes)
  rw [← hcheck]
  unfold logMsg logged
  rw [hdata]
  change (build.addUsize ptr.toNat len.toNat >>= _) = _
  congr 1
  funext stop
  split_ifs with hout
  · rfl
  · congr 1
    funext bytes
    cases fromUtf8 bytes with
    | none => rfl
    | some msg => rfl

theorem uartWrite_eq {data : Bytes} (hdata : s.memory = some data) (bus ptr len : UInt32) :
    uartWrite build hardware s bus ptr len =
      if Adds build data ptr len.toNat then
        if ptr.toNat + len.toNat ≤ data.length then
          .ok (written hardware s bus (bytesAt data ptr len.toNat))
        else .ok (-1, s)
      else .error .panic := by
  have hcheck := checkedSlice_eq data ptr (build.toNat_lt len) (-1, s)
    fun bytes => .ok (written hardware s bus bytes)
  obtain ⟨hw, memory, logs, transfers⟩ := s
  cases hdata
  exact hcheck

-- What the backend does with the zeroed buffer of a uart_read.
def received (bus lenMax timeoutMs : UInt32) : Int32 × Vector UInt8 lenMax.toNat × H :=
  hardware.uartRead s.hw bus (Vector.replicate lenMax.toNat 0) timeoutMs

-- The bytes of it that are copied.
def receivedBytes (bus lenMax timeoutMs : UInt32) : Bytes :=
  (received hardware s bus lenMax timeoutMs).2.1.toList.take
    (received hardware s bus lenMax timeoutMs).1.toNatClampNeg

theorem length_receivedBytes (bus lenMax timeoutMs : UInt32) :
    (receivedBytes hardware s bus lenMax timeoutMs).length =
      min (received hardware s bus lenMax timeoutMs).1.toNatClampNeg lenMax.toNat := by
  simp [receivedBytes]

theorem take_copyLen {n k : Nat} (rxBuf : Vector UInt8 n) :
    rxBuf.toList.take (min k n) = rxBuf.toList.take k := by
  rw [List.take_eq_take_min (i := k), Vector.length_toList]

-- The state behind the backend's answer.
def afterRead (bus lenMax timeoutMs : UInt32) : HostState H :=
  { s with hw := (received hardware s bus lenMax timeoutMs).2.2 }

theorem uartRead_eq {data : Bytes} (hdata : s.memory = some data) (bus ptr lenMax timeoutMs : UInt32) :
    uartRead build hardware s bus ptr lenMax timeoutMs =
      if lenMax.toNat < 2 ^ (build.width - 1) then
        if 0 < (received hardware s bus lenMax timeoutMs).1 then
          if Adds build data ptr (receivedBytes hardware s bus lenMax timeoutMs).length then
            if ptr.toNat + (receivedBytes hardware s bus lenMax timeoutMs).length ≤ data.length then
              .ok ((received hardware s bus lenMax timeoutMs).1,
                { afterRead hardware s bus lenMax timeoutMs with
                  memory := some
                    (splice data ptr (receivedBytes hardware s bus lenMax timeoutMs)) })
            else .ok ((received hardware s bus lenMax timeoutMs).1,
              afterRead hardware s bus lenMax timeoutMs)
          else .error .panic
        else .ok ((received hardware s bus lenMax timeoutMs).1,
          afterRead hardware s bus lenMax timeoutMs)
      else .error .panic := by
  have hlen := length_receivedBytes hardware s bus lenMax timeoutMs
  have hsrc : (receivedBytes hardware s bus lenMax timeoutMs).length < 2 ^ build.width := by
    rw [hlen]
    exact Nat.lt_of_le_of_lt (Nat.min_le_right _ _) (build.toNat_lt lenMax)
  have hcheck := checkedCopy_eq data ptr (receivedBytes hardware s bus lenMax timeoutMs) hsrc
    ((received hardware s bus lenMax timeoutMs).1, afterRead hardware s bus lenMax timeoutMs)
    fun data' => .ok ((received hardware s bus lenMax timeoutMs).1,
      { afterRead hardware s bus lenMax timeoutMs with memory := some data' })
  rw [← hcheck, hlen]
  unfold receivedBytes
  rw [← take_copyLen]
  obtain ⟨hw, memory, logs, transfers⟩ := s
  cases hdata
  unfold uartRead
  change (build.zeroes lenMax.toNat >>= _) = _
  split_ifs with hbuf hn
  · have hzero : build.zeroes lenMax.toNat = .ok (Vector.replicate lenMax.toNat 0) := if_pos hbuf
    rw [hzero]
    exact if_pos hn
  · have hzero : build.zeroes lenMax.toNat = .ok (Vector.replicate lenMax.toNat 0) := if_pos hbuf
    rw [hzero]
    exact if_neg hn
  · have hzero : build.zeroes lenMax.toNat = .error .panic := if_neg hbuf
    rw [hzero]
    rfl

theorem uartRead_none (hdata : s.memory = none) (bus ptr lenMax timeoutMs : UInt32) :
    uartRead build hardware s bus ptr lenMax timeoutMs = .ok (-1, s) := by
  unfold uartRead
  rw [hdata]

-- A syscall that returns, and that is quiet where the range is none of the memory.
def Heeds {α : Type} (memory : Option Bytes) (ptr : UInt32) (len : Nat) (quiet : α → Prop)
    (outcome : Except Fault α) : Prop :=
  ∃ a, outcome = .ok a ∧ (¬Lies memory ptr len → quiet a)

theorem heeds_check_iff {α : Type} {data : Bytes} {ptr : UInt32} {len : Nat} {adds : Prop}
    [Decidable adds] {inside early : α} (quiet : α → Prop) (hearly : quiet early) :
    Heeds (some data) ptr len quiet (if adds then
        if ptr.toNat + len ≤ data.length then .ok inside else .ok early
      else .error .panic) ↔ adds := by
  split_ifs with hadds hin
  · exact iff_of_true ⟨inside, rfl, fun h => absurd ((lies_some data ptr len).mpr hin) h⟩ hadds
  · exact iff_of_true ⟨early, rfl, fun _ => hearly⟩ hadds
  · refine iff_of_false ?_ hadds
    rintro ⟨a, ha, -⟩
    cases ha

theorem heeds_logMsg_iff (ptr len : UInt32) :
    Heeds s.memory ptr len.toNat (· = s) (logMsg build hardware s ptr len) ↔
      ∀ data, s.memory = some data → Adds build data ptr len.toNat := by
  cases hdata : s.memory with
  | none =>
      refine iff_of_true ⟨s, ?_, fun _ => rfl⟩ fun data h => by cases h
      unfold logMsg
      rw [hdata]
  | some data =>
      rw [logMsg_eq build hardware s hdata, heeds_check_iff (· = s) rfl]
      simp only [Option.some.injEq, forall_eq']

theorem heeds_uartWrite_iff (bus ptr len : UInt32) :
    Heeds s.memory ptr len.toNat (·.2 = s) (uartWrite build hardware s bus ptr len) ↔
      ∀ data, s.memory = some data → Adds build data ptr len.toNat := by
  cases hdata : s.memory with
  | none =>
      refine iff_of_true ⟨(-1, s), ?_, fun _ => rfl⟩ fun data h => by cases h
      unfold uartWrite
      rw [hdata]
  | some data =>
      rw [uartWrite_eq build hardware s hdata, heeds_check_iff (fun a : Int32 × HostState H => a.2 = s) rfl]
      simp only [Option.some.injEq, forall_eq']

theorem heeds_uartRead_iff (bus ptr lenMax timeoutMs : UInt32) :
    Heeds s.memory ptr (receivedBytes hardware s bus lenMax timeoutMs).length
        (·.2.memory = s.memory) (uartRead build hardware s bus ptr lenMax timeoutMs) ↔
      ∀ data, s.memory = some data → lenMax.toNat < 2 ^ (build.width - 1) ∧
        (0 < (received hardware s bus lenMax timeoutMs).1 →
          Adds build data ptr (receivedBytes hardware s bus lenMax timeoutMs).length) := by
  cases hdata : s.memory with
  | none =>
      exact iff_of_true ⟨(-1, s), uartRead_none build hardware s hdata .., fun _ => hdata⟩
        fun data h => by cases h
  | some data =>
      simp only [uartRead_eq build hardware s hdata, Option.some.injEq, forall_eq']
      rcases Nat.lt_or_ge lenMax.toNat (2 ^ (build.width - 1)) with hbuf | hbuf
      · rw [if_pos hbuf, and_iff_right hbuf]
        rcases em (0 < (received hardware s bus lenMax timeoutMs).1) with hn | hn
        · rw [if_pos hn, imp_iff_right hn]
          exact heeds_check_iff (fun a : Int32 × HostState H => a.2.memory = some data) hdata
        · rw [if_neg hn]
          exact iff_of_true ⟨_, rfl, fun _ => hdata⟩ fun h => absurd h hn
      · rw [if_neg (Nat.not_lt.mpr hbuf)]
        refine iff_of_false ?_ fun h => absurd h.1 (Nat.not_lt.mpr hbuf)
        rintro ⟨a, ha, -⟩
        cases ha

end Syscalls

-- The three syscalls return and keep to the memory on the calls whose end does not wrap
-- into it, and on no others. Where usize is wider than u32, no end wraps.
theorem checked_ranges_iff {H : Type} (build : Build) (hardware : MiloHardware H) (s : HostState H) :
    (∀ ptr len : UInt32,
      Heeds s.memory ptr len.toNat (· = s) (logMsg build hardware s ptr len) ↔
        ∀ data, s.memory = some data → Adds build data ptr len.toNat) ∧
    (∀ bus ptr len : UInt32,
      Heeds s.memory ptr len.toNat (·.2 = s) (uartWrite build hardware s bus ptr len) ↔
        ∀ data, s.memory = some data → Adds build data ptr len.toNat) ∧
    (∀ bus ptr lenMax timeoutMs : UInt32,
      Heeds s.memory ptr (receivedBytes hardware s bus lenMax timeoutMs).length
          (·.2.memory = s.memory) (uartRead build hardware s bus ptr lenMax timeoutMs) ↔
        ∀ data, s.memory = some data → lenMax.toNat < 2 ^ (build.width - 1) ∧
          (0 < (received hardware s bus lenMax timeoutMs).1 →
            Adds build data ptr (receivedBytes hardware s bus lenMax timeoutMs).length)) ∧
    (33 ≤ build.width → ∀ (data : Bytes) (ptr : UInt32) (len : Nat), len < 2 ^ 32 →
      Adds build data ptr len) :=
  ⟨heeds_logMsg_iff build hardware s, heeds_uartWrite_iff build hardware s,
    heeds_uartRead_iff build hardware s, fun hwide data ptr _ hlen => adds_wide data ptr hwide hlen⟩

-- The build for the boards.
def release32 : Build := { width := 32, wide := Nat.le_refl 32, overflowChecks := false }

-- A UART that always has as many bytes as it is asked for.
def busyUart : MiloHardware UInt64 :=
  { laptopMock with uartRead := fun clock _ n buf _ => (Int32.ofNat n, buf, clock) }

-- A module that exports a memory of no pages.
def noPage : HostState UInt64 := { hw := 0, memory := some [], logs := [], transfers := [] }

-- The last byte that a u32 can address: its end is 0.
theorem wrapped_range_panics :
    (logMsg release32 busyUart noPage 0xFFFFFFFF 1 = .error .panic ∧
      uartWrite release32 busyUart noPage 0 0xFFFFFFFF 1 = .error .panic ∧
      uartRead release32 busyUart noPage 0 0xFFFFFFFF 1 0 = .error .panic) ∧
    ¬Heeds noPage.memory 0xFFFFFFFF 1 (· = noPage)
      (logMsg release32 busyUart noPage 0xFFFFFFFF 1) := by
  refine ⟨⟨rfl, rfl, rfl⟩, ?_⟩
  rintro ⟨s', h, -⟩
  cases h

end Milo.Runtime

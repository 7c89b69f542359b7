import Milo.Host.Flash.History

namespace Milo.Host.Flash

variable {ι : Type}

-- A firmware file that was handed to a backend: the entry in use and what is in the file,
-- none for a directory.
structure FlashedFile where
  entry : Variant
  firmware : Option Bytes
deriving DecidableEq

def DiskEvent.file? : DiskEvent ι → Option FlashedFile
  | .flashed entry _ firmware => some { entry := entry, firmware := firmware }
  | _ => none

def Bench.flashed (s : Bench ι) : List FlashedFile := s.log.filterMap DiskEvent.file?

def FlashedFile.Matches (py : Builtins) (f : FlashedFile) : Prop :=
  ∀ digest, f.entry.declared = some digest →
    ∃ bytes, f.firmware = some bytes ∧ py.sha256 bytes = digest

def DiskEvent.Touches (place : ι) : DiskEvent ι → Prop
  | .put other _ => other = place
  | .removed other => other = place
  | .flashed _ _ _ => False

-- The bytes were put at the place last, or they were there at first and nothing was put or
-- removed there.
def Supplies (initial : Disk ι) (log : List (DiskEvent ι)) (place : ι) (bytes : Bytes) : Prop :=
  (∃ since earlier, log = since ++ .put place bytes :: earlier ∧
      ∀ event ∈ since, ¬event.Touches place) ∨
    initial place = .file bytes ∧ ∀ event ∈ log, ¬event.Touches place

section Supply

variable {initial : Disk ι} {log : List (DiskEvent ι)} {place : ι} {event : DiskEvent ι} {bytes : Bytes}

theorem supplies_nil : Supplies initial [] place bytes ↔ initial place = .file bytes := by
  unfold Supplies
  simp

theorem supplies_cons_of_not_touches (h : ¬event.Touches place) :
    Supplies initial (event :: log) place bytes ↔ Supplies initial log place bytes := by
  constructor
  · rintro (⟨since, earlier, heq, hsince⟩ | ⟨hinitial, hlog⟩)
    · cases since with
      | nil =>
          obtain ⟨rfl, -⟩ := List.cons.inj heq
          exact absurd rfl h
      | cons last since =>
          obtain ⟨-, rfl⟩ := List.cons.inj heq
          exact .inl ⟨since, earlier, rfl, fun e he => hsince e (List.mem_cons_of_mem _ he)⟩
    · exact .inr ⟨hinitial, fun e he => hlog e (List.mem_cons_of_mem _ he)⟩
  · rintro (⟨since, earlier, rfl, hsince⟩ | ⟨hinitial, hlog⟩)
    · exact .inl ⟨event :: since, earlier, rfl, List.forall_mem_cons.mpr ⟨h, hsince⟩⟩
    · exact .inr ⟨hinitial, List.forall_mem_cons.mpr ⟨h, hlog⟩⟩

theorem supplies_cons_put {written : Bytes} :
    Supplies initial (.put place written :: log) place bytes ↔ written = bytes := by
  constructor
  · rintro (⟨since, earlier, heq, hsince⟩ | ⟨-, hlog⟩)
    · cases since with
      | nil => exact (DiskEvent.put.inj (List.cons.inj heq).1).2
      | cons last since =>
          obtain ⟨rfl, -⟩ := List.cons.inj heq
          exact absurd rfl (hsince _ List.mem_cons_self)
    · exact absurd rfl (hlog _ List.mem_cons_self)
  · rintro rfl
    exact .inl ⟨[], log, rfl, nofun⟩

theorem not_supplies_cons_removed : ¬Supplies initial (.removed place :: log) place bytes := by
  rintro (⟨since, earlier, heq, hsince⟩ | ⟨-, hlog⟩)
  · cases since with
    | nil => cases (List.cons.inj heq).1
    | cons last since =>
        obtain ⟨rfl, -⟩ := List.cons.inj heq
        exact hsince _ List.mem_cons_self rfl
  · exact hlog _ List.mem_cons_self rfl

end Supply

-- On the disk is what the log supplies, and so is each firmware.
structure Recorded (initial : Disk ι) (s : Bench ι) : Prop where
  disk : ∀ place bytes, s.disk place = .file bytes ↔ Supplies initial s.log place bytes
  flashed : ∀ after entry place firmware before,
    s.log = after ++ .flashed entry place firmware :: before →
      ∀ bytes, firmware = some bytes ↔ Supplies initial before place bytes

theorem Recorded.start (initial : Disk ι) : Recorded initial (Bench.start initial) where
  disk _ _ := supplies_nil.symm
  flashed after _ _ _ _ heq := by cases after <;> cases heq

theorem content_eq_some_iff (node : Node) (bytes : Bytes) :
    node.content = some bytes ↔ node = .file bytes := by
  cases node <;> simp [Node.content]

variable [DecidableEq ι] {py : Builtins} {files : Files ι} {initial : Disk ι} {s : Bench ι}

theorem supplies_does
    (hdisk : ∀ place bytes, s.disk place = .file bytes ↔ Supplies initial s.log place bytes)
    (event : DiskEvent ι) (place : ι) (bytes : Bytes) :
    (s.does event).disk place = .file bytes ↔ Supplies initial (event :: s.log) place bytes := by
  cases event with
  | put other written =>
      rcases eq_or_ne place other with rfl | hne
      · rw [supplies_cons_put]
        simp [Bench.does, DiskEvent.apply]
      · rw [supplies_cons_of_not_touches (by exact hne.symm), ← hdisk]
        simp [Bench.does, DiskEvent.apply, hne]
  | removed other =>
      rcases eq_or_ne place other with rfl | hne
      · refine iff_of_false ?_ not_supplies_cons_removed
        simp [Bench.does, DiskEvent.apply]
      · rw [supplies_cons_of_not_touches (by exact hne.symm), ← hdisk]
        simp [Bench.does, DiskEvent.apply, hne]
  | flashed entry other firmware =>
      rw [supplies_cons_of_not_touches (by exact id), ← hdisk]
      rfl

theorem Recorded.does (h : Recorded initial s) {command : Command} {event : DiskEvent ι}
    (heffect : command.Effect files s.disk event) : Recorded initial (s.does event) where
  disk := supplies_does h.disk event
  flashed after entry place firmware before heq := by
    cases after with
    | nil =>
        obtain ⟨rfl, rfl⟩ := List.cons.inj heq
        intro bytes
        rw [heffect.1, content_eq_some_iff, h.disk]
    | cons last after =>
        obtain ⟨-, heq⟩ := List.cons.inj heq
        exact h.flashed after entry place firmware before heq

def Served (files : Files ι) (commands : List Command) (place : ι) (bytes : Bytes) : Prop :=
  ∃ command ∈ commands, ∃ entry filename,
    command.Lists entry filename ∧ command.Serves entry bytes ∧ place = files.place filename

-- The history has its bodies from the servers: what it put at a place, .part files apart, was
-- served for an entry that leads there.
theorem put_served (py : Builtins) (files : Files ι) (initial : Disk ι) (commands : List Command) :
    ∀ place bytes, .put place bytes ∈ (Bench.run py files (Bench.start initial) commands).log →
      files.IsPart place ∨ Served files commands place bytes := by
  have hstep : ∀ (s : Bench ι) (event : DiskEvent ι),
      (∀ place bytes, .put place bytes ∈ s.log → files.IsPart place ∨ Served files commands place bytes) →
      (∃ command ∈ commands, command.Effect files s.disk event) →
      ∀ place bytes, .put place bytes ∈ (s.does event).log →
        files.IsPart place ∨ Served files commands place bytes := by
    rintro s event hs ⟨command, hmem, heffect⟩ place bytes hput
    rcases List.mem_cons.mp hput with rfl | hput
    · rcases heffect with ⟨entry, filename, hserved⟩ | hpart
      · exact .inr ⟨command, hmem, entry, filename, hserved⟩
      · exact .inl hpart
    · exact hs place bytes hput
  exact (run_does (Bench.start initial) commands).invariant hstep fun _ _ hput => nomatch hput

theorem writable_does_put (s : Bench ι) (place tmp : ι) (bytes : Bytes) (h : (s.disk place).writable = true) :
    ((s.does (.put tmp bytes)).disk place).writable = true := by
  rcases eq_or_ne place tmp with rfl | hne
  · simp [Bench.does, DiskEvent.apply, Node.writable]
  · simpa [Bench.does, DiskEvent.apply, hne] using h

-- What --verify refuses stays in the cache directory, where milo init finds it.
theorem refused_stays (d : Download) (s : Bench ι) {entry : Variant} {filename url digest : String}
    {bytes : Bytes} {part : Path} (hverify : d.verify = true) (hfilename : entry.filename = some filename)
    (hurl : entry.url = some url) (hdeclared : entry.declared = some digest)
    (hserver : d.server url = .body bytes) (hbytes : py.sha256 bytes ≠ digest)
    (hpart : (files.path filename).part = some part)
    (htmp : (s.disk (files.locate part)).writable = true)
    (hdest : (s.disk (files.place filename)).writable = true) :
    (d.save py files s entry).1 = .code 1 ∧
      ∀ t : Target, t.obtain files (d.save py files s entry).2 entry (files.path filename) =
        (.ok (), (d.save py files s entry).2) ∧
        ((d.save py files s entry).2.disk (files.place filename)).content = some bytes := by
  have hreplaced := writable_does_put s (files.place filename) (files.locate part) bytes hdest
  have hdownload : downloadFirmware files s (files.path filename) (d.server url) =
      (.ok (), ((s.does (.put (files.locate part) bytes)).does (.removed (files.locate part))).does
        (.put (files.place filename) bytes)) := by
    rw [hserver]
    simp only [downloadFirmware, hpart, htmp, if_true, replace]
    exact if_pos hreplaced
  have hfile : (((s.does (.put (files.locate part) bytes)).does (.removed (files.locate part))).does
      (.put (files.place filename) bytes)).disk (files.place filename) = .file bytes :=
    Function.update_self ..
  have hsave : d.save py files s entry =
      (.code 1, ((s.does (.put (files.locate part) bytes)).does (.removed (files.locate part))).does
        (.put (files.place filename) bytes)) := by
    simp only [Download.save, hfilename, hurl, hdownload, hfile, Node.content, Download.verified, hverify,
      hdeclared, if_true, if_neg hbytes]
  rw [hsave]
  refine ⟨rfl, fun t => ⟨?_, congrArg Node.content hfile⟩⟩
  unfold Target.obtain
  rw [show files.locate (files.path filename) = files.place filename from rfl, hfile]

end Milo.Host.Flash

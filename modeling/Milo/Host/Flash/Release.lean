import Milo.Host.Flash.Trust

namespace Milo.Host.Flash

variable {ι : Type} (py : Builtins) (files : Files ι) (digest : ι → String)

-- A release: some command has an entry of this name in its manifest.
def Released (commands : List Command) (place : ι) : Prop :=
  ∃ command ∈ commands, ∃ entry filename, command.Lists entry filename ∧ files.place filename = place

-- A server that stands by its releases: under each name there is one image, whatever the
-- entry, the time and the command, and no release has the name of a .part file.
structure Stands (command : Command) : Prop where
  declared : ∀ entry filename, command.Lists entry filename →
    ∀ declared, entry.declared = some declared → declared = digest (files.place filename)
  served : ∀ entry filename, command.Lists entry filename →
    ∀ bytes, command.Serves entry bytes → py.sha256 bytes = digest (files.place filename)
  apart : ∀ entry filename, command.Lists entry filename → ¬files.IsPart (files.place filename)

-- Under the names of the releases are their images, if anything.
def Genuine (commands : List Command) (disk : Disk ι) : Prop :=
  ∀ place, Released files commands place →
    disk place ≠ .directory ∧ ∀ bytes, disk place = .file bytes → py.sha256 bytes = digest place

variable {py files digest} [DecidableEq ι] {commands : List Command} {command : Command} {s : Bench ι}
  {event : DiskEvent ι}

omit [DecidableEq ι] in
theorem not_isPart_of_released (hstands : ∀ command ∈ commands, Stands py files digest command)
    {place : ι} (hreleased : Released files commands place) : ¬files.IsPart place := by
  obtain ⟨command, hmem, entry, filename, hlists, rfl⟩ := hreleased
  exact (hstands command hmem).apart entry filename hlists

theorem Genuine.apply {disk : Disk ι} (hstands : ∀ command ∈ commands, Stands py files digest command)
    (hmem : command ∈ commands) (heffect : command.Effect files disk event)
    (h : Genuine py files digest commands disk) :
    Genuine py files digest commands (event.apply disk) := by
  intro place hreleased
  have hpart := not_isPart_of_released hstands hreleased
  cases event with
  | put other bytes =>
      rcases eq_or_ne place other with rfl | hne
      · obtain ⟨entry, filename, hlists, hserves, rfl⟩ := heffect.resolve_right hpart
        have hsha := (hstands command hmem).served entry filename hlists bytes hserves
        simpa [DiskEvent.apply] using hsha
      · simpa [DiskEvent.apply, hne] using h place hreleased
  | removed other =>
      rcases eq_or_ne place other with rfl | hne
      · exact absurd heffect hpart
      · simpa [DiskEvent.apply, hne] using h place hreleased
  | flashed entry other firmware => exact h place hreleased

omit [DecidableEq ι] in
-- What is flashed from a genuine disk is as its entry declares.
theorem Genuine.matches {entry : Variant} {place : ι} {firmware : Option Bytes}
    (hstands : Stands py files digest command) (hmem : command ∈ commands)
    (heffect : command.Effect files s.disk (.flashed entry place firmware))
    (h : Genuine py files digest commands s.disk) :
    FlashedFile.Matches py { entry := entry, firmware := firmware } := by
  obtain ⟨rfl, hthere, filename, hlists, rfl⟩ := heffect
  obtain ⟨hdirectory, himage⟩ := h _ ⟨command, hmem, entry, filename, hlists, rfl⟩
  obtain ⟨bytes, hfile⟩ := hthere.resolve_left hdirectory
  intro declared hdeclared
  refine ⟨bytes, congrArg Node.content hfile, ?_⟩
  rw [himage bytes hfile, hstands.declared entry filename hlists declared hdeclared]

theorem flashed_does (s : Bench ι) (event : DiskEvent ι) :
    (s.does event).flashed = event.file?.toList ++ s.flashed := by
  cases event <;> rfl

-- With such a server every file is flashed as declared, whatever fails on the way.
theorem standing_releases_match (commands : List Command) (initial : Disk ι)
    (hstands : ∀ command ∈ commands, Stands py files digest command)
    (hinitial : Genuine py files digest commands initial) :
    ∀ f ∈ (Bench.run py files (Bench.start initial) commands).flashed, f.Matches py := by
  have hstep : ∀ (s : Bench ι) (event : DiskEvent ι),
      (Genuine py files digest commands s.disk ∧ ∀ f ∈ s.flashed, f.Matches py) →
      (∃ command ∈ commands, command.Effect files s.disk event) →
      Genuine py files digest commands (s.does event).disk ∧
        ∀ f ∈ (s.does event).flashed, f.Matches py := by
    rintro s event ⟨hgenuine, hflashed⟩ ⟨command, hmem, heffect⟩
    refine ⟨hgenuine.apply hstands hmem heffect, fun f hf => ?_⟩
    rw [flashed_does] at hf
    rcases List.mem_append.mp hf with hnew | hold
    · cases event with
      | put place bytes => cases hnew
      | removed place => cases hnew
      | flashed entry place firmware =>
          obtain rfl := List.mem_singleton.mp hnew
          exact hgenuine.matches (hstands command hmem) hmem heffect
    · exact hflashed f hold
  have hstart : Genuine py files digest commands (Bench.start initial).disk ∧
      ∀ f ∈ (Bench.start initial).flashed, f.Matches py := ⟨hinitial, nofun⟩
  exact ((run_does (Bench.start initial) commands).invariant hstep hstart).2

end Milo.Host.Flash

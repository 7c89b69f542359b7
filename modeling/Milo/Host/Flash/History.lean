import Milo.Host.Flash

-- What the commands put, remove and flash, and where they have it from.
namespace Milo.Host.Flash

variable {ι : Type} [DecidableEq ι]

-- One bench comes from another by events, each of which fits the disk it meets.
inductive Bench.Does (P : Disk ι → DiskEvent ι → Prop) (s : Bench ι) : Bench ι → Prop where
  | refl : Bench.Does P s s
  | step {s' : Bench ι} {event : DiskEvent ι} (h : Bench.Does P s s') (hevent : P s'.disk event) :
      Bench.Does P s (s'.does event)

namespace Bench.Does

variable {P Q : Disk ι → DiskEvent ι → Prop} {s s' s'' : Bench ι}

theorem trans (h : Does P s s') (h' : Does P s' s'') : Does P s s'' := by
  induction h' with
  | refl => exact h
  | step _ hevent ih => exact .step ih hevent

theorem mono (himp : ∀ disk event, P disk event → Q disk event) (h : Does P s s') : Does Q s s' := by
  induction h with
  | refl => exact .refl
  | step _ hevent ih => exact .step ih (himp _ _ hevent)

theorem invariant {I : Bench ι → Prop} (hstep : ∀ s event, I s → P s.disk event → I (s.does event))
    (h : Does P s s') (hs : I s) : I s' := by
  induction h with
  | refl => exact hs
  | step _ hevent ih => exact hstep _ _ ih hevent

end Bench.Does

def Command.fetched : Command → Fetched
  | .download d => d.fetched
  | .init i => i.fetched

def Command.servers : Command → List (String → Response)
  | .download d => [d.server]
  | .init i => i.targets.map (·.server)

-- The manifest of the command has the entry, with this file name.
def Command.Lists (command : Command) (entry : Variant) (filename : String) : Prop :=
  ∃ variants, command.fetched = .manifest variants ∧ entry ∈ variants ∧ entry.filename = some filename

-- The server gives the command this body for the entry.
def Command.Serves (command : Command) (entry : Variant) (bytes : Bytes) : Prop :=
  ∃ url, entry.url = some url ∧ ∃ server ∈ command.servers, server url = .body bytes

section Effects

variable (files : Files ι)

-- Some download leads to the place with its .part file.
def Files.IsPart (place : ι) : Prop :=
  ∃ dest part : Path, dest.part = some part ∧ files.locate part = place

-- What a download does: it ends with the body it was given, and all else is in .part files.
def Downloads (dest : Path) (response : Response) : DiskEvent ι → Prop
  | .put place bytes => response = .body bytes ∧ place = files.locate dest ∨ files.IsPart place
  | .removed place => files.IsPart place
  | .flashed _ _ _ => False

-- What a command does: a body is served for an entry of its manifest and put under the name
-- there, or the file or directory of this name is handed to a backend.
def Command.Effect (command : Command) (disk : Disk ι) : DiskEvent ι → Prop
  | .put place bytes =>
      (∃ entry filename, command.Lists entry filename ∧ command.Serves entry bytes ∧
        place = files.place filename) ∨ files.IsPart place
  | .removed place => files.IsPart place
  | .flashed entry place firmware =>
      firmware = (disk place).content ∧ (disk place = .directory ∨ ∃ bytes, disk place = .file bytes) ∧
        ∃ filename, command.Lists entry filename ∧ place = files.place filename

variable {files}

theorem downloadFirmware_does (s : Bench ι) (dest : Path) (response : Response) :
    s.Does (fun _ => Downloads files dest response) (downloadFirmware files s dest response).2 := by
  unfold downloadFirmware
  cases hpart : dest.part with
  | none => exact .refl
  | some part =>
      have htmp : files.IsPart (files.locate part) := ⟨dest, part, hpart, rfl⟩
      cases response with
      | body bytes =>
          simp only [replace]
          split_ifs
          · exact .step (.step (.step .refl (.inr htmp)) htmp) (.inl ⟨rfl, rfl⟩)
          · exact .step .refl (.inr htmp)
          · exact .refl
      | urlError =>
          simp only
          cases s.disk (files.locate part) with
          | file bytes => exact .step .refl htmp
          | absent | directory | unreachable | refused => exact .refl
      | raised written =>
          cases written with
          | none => exact .refl
          | some written =>
              simp only
              split_ifs
              · exact .step .refl (.inr htmp)
              · exact .refl

-- A download without an error leaves a file.
theorem downloadFirmware_file {s : Bench ι} {dest : Path} {response : Response}
    (hok : (downloadFirmware files s dest response).1 = .ok ()) :
    ∃ bytes, (downloadFirmware files s dest response).2.disk (files.locate dest) = .file bytes := by
  unfold downloadFirmware at hok ⊢
  cases hpart : dest.part with
  | none =>
      rw [hpart] at hok
      cases hok
  | some part =>
      rw [hpart] at hok
      cases response with
      | body bytes =>
          simp only [replace] at hok ⊢
          split_ifs at hok ⊢
          exact ⟨bytes, Function.update_self ..⟩
      | urlError =>
          simp only at hok
          split at hok <;> cases hok
      | raised written =>
          cases written with
          | none => cases hok
          | some written =>
              simp only at hok
              split_ifs at hok

-- A download for an entry of the manifest is what the command may do.
theorem Bench.Does.effect {s s' : Bench ι} (command : Command) {entry : Variant} {filename url : String}
    {server : String → Response} (hlists : command.Lists entry filename) (hurl : entry.url = some url)
    (hserver : server ∈ command.servers)
    (h : s.Does (fun _ => Downloads files (files.path filename) (server url)) s') :
    s.Does (command.Effect files) s' := by
  refine h.mono fun disk event hevent => ?_
  cases event with
  | put place bytes =>
      rcases hevent with ⟨hbody, rfl⟩ | hpart
      · exact .inl ⟨entry, filename, hlists, ⟨url, hurl, server, hserver, hbody⟩, rfl⟩
      · exact .inr hpart
  | removed place => exact hevent
  | flashed entry place firmware => exact hevent.elim

end Effects

variable {py : Builtins} {files : Files ι} {variants : List Variant} {entry : Variant}

theorem mem_of_lookupVariant {name : String}
    (h : lookupVariant py name variants = .ok (some entry)) : entry ∈ variants := by
  induction variants with
  | nil => cases h
  | cons v variants ih =>
      unfold lookupVariant at h
      cases hv : v.variant with
      | none =>
          rw [hv] at h
          cases h
      | some variant =>
          simp only [hv] at h
          split_ifs at h
          · cases h
            exact List.mem_cons_self
          · exact List.mem_cons_of_mem _ (ih h)

theorem mem_of_interactivePick {answer : Option String}
    (h : interactivePick py answer variants = .ok (some entry)) : entry ∈ variants := by
  unfold interactivePick at h
  split_ifs at h
  cases answer with
  | none => cases h
  | some raw =>
      simp only at h
      split_ifs at h
      · cases h
      · cases hint : py.int raw with
        | none =>
            rw [hint] at h
            cases h
        | some n =>
            simp only [hint] at h
            split_ifs at h
            · exact List.mem_of_getElem? (Except.ok.inj h)
            · cases h
      · exact mem_of_lookupVariant h

variable {d : Download}

theorem mem_of_pick (h : d.pick py variants = .ok (some entry)) : entry ∈ variants := by
  unfold Download.pick at h
  cases hboard : d.board with
  | none =>
      rw [hboard] at h
      exact mem_of_interactivePick h
  | some board =>
      simp only [hboard] at h
      split_ifs at h
      · exact mem_of_interactivePick h
      · exact mem_of_lookupVariant h

theorem save_does (s : Bench ι) (hfetched : d.fetched = .manifest variants) (hmem : entry ∈ variants) :
    s.Does ((Command.download d).Effect files) (d.save py files s entry).2 := by
  unfold Download.save
  cases hfilename : entry.filename with
  | none => exact .refl
  | some filename =>
      cases hurl : entry.url with
      | none => exact .refl
      | some url =>
          have hdoes := @downloadFirmware_does ι _ files s (files.path filename) (d.server url)
          have heffect := hdoes.effect (.download d) ⟨variants, hfetched, hmem, hfilename⟩ hurl
            List.mem_cons_self
          simp only
          rcases hdownload : downloadFirmware files s (files.path filename) (d.server url) with
            ⟨(_ | _) | _, s'⟩
          all_goals
            rw [hdownload] at heffect
            exact heffect

theorem download_does (s : Bench ι) :
    s.Does ((Command.download d).Effect files) (d.run py files s).2 := by
  unfold Download.run
  cases hfetched : d.fetched with
  | downloadError => exact .refl
  | raised => exact .refl
  | manifest variants =>
      cases variants with
      | nil => exact .refl
      | cons v variants =>
          simp only
          cases hpick : d.pick py (v :: variants) with
          | error exit => exact .refl
          | ok picked =>
              cases picked with
              | none => exact .refl
              | some entry => exact save_does s hfetched (mem_of_pick hpick)

variable {i : InitCmd} {t : Target}

theorem obtain_does (s : Bench ι) {filename : String} (hlists : (Command.init i).Lists entry filename)
    (ht : t ∈ i.targets) :
    s.Does ((Command.init i).Effect files) (t.obtain files s entry (files.path filename)).2 := by
  have hdownload : ∀ url, entry.url = some url → s.Does ((Command.init i).Effect files)
      (downloadFirmware files s (files.path filename) (t.server url)).2 := fun url hurl =>
    (downloadFirmware_does s _ _).effect (.init i) hlists hurl (List.mem_map_of_mem ht)
  unfold Target.obtain
  cases s.disk (files.locate (files.path filename)) with
  | file bytes => exact .refl
  | directory => exact .refl
  | refused => exact .refl
  | absent | unreachable =>
      cases hurl : entry.url with
      | none => exact .refl
      | some url => exact hdownload url hurl

-- What there is to flash is a file or, taken for one, a directory.
theorem obtain_there {s : Bench ι} {path : Path} (hok : (t.obtain files s entry path).1 = .ok ()) :
    (t.obtain files s entry path).2.disk (files.locate path) = .directory ∨
      ∃ bytes, (t.obtain files s entry path).2.disk (files.locate path) = .file bytes := by
  unfold Target.obtain at hok ⊢
  cases hnode : s.disk (files.locate path) with
  | file bytes => exact .inr ⟨bytes, hnode⟩
  | directory => exact .inl hnode
  | refused =>
      rw [hnode] at hok
      cases hok
  | absent | unreachable =>
      rw [hnode] at hok
      cases hurl : entry.url with
      | none =>
          rw [hurl] at hok
          cases hok
      | some url =>
          rw [hurl] at hok
          exact .inr (downloadFirmware_file hok)

theorem flash_does (s : Loop ι) (hfetched : i.fetched = .manifest variants) (hmem : entry ∈ variants)
    (ht : t ∈ i.targets) (backend : Backend) :
    s.bench.Does ((Command.init i).Effect files) (s.flash files t backend entry).bench := by
  unfold Loop.flash
  cases hfilename : entry.filename with
  | none => exact .refl
  | some filename =>
      have hlists : (Command.init i).Lists entry filename := ⟨variants, hfetched, hmem, hfilename⟩
      have hdoes := @obtain_does ι _ files entry i t s.bench filename hlists ht
      have hthere := @obtain_there ι _ files entry t s.bench (files.path filename)
      simp only
      rcases hobtain : t.obtain files s.bench entry (files.path filename) with ⟨(_ | _) | _, bench⟩
      · rw [hobtain] at hdoes
        exact hdoes
      · rw [hobtain] at hdoes
        exact hdoes
      · rw [hobtain] at hdoes hthere
        exact .step hdoes ⟨rfl, hthere rfl, filename, hlists, rfl⟩

theorem mem_of_find {variant : Option String}
    (h : findVariantInManifest py variants variant = some entry) : entry ∈ variants := by
  cases variant with
  | none => cases h
  | some variant => exact List.mem_of_find?_eq_some h

variable (py) in
omit [DecidableEq ι] in
theorem select_cases (i : InitCmd) (s : Loop ι) (t : Target) :
    (∃ s', i.select py s t = (s', none) ∧
      (s' = s ∨ s' = { s with exit := some .raised } ∨ s' = s.fetch i.fetched)) ∨
    ∃ backend variants entry, (s.fetch i.fetched).manifest = some variants ∧ entry ∈ variants ∧
      i.select py s t = (s.fetch i.fetched, some (backend, entry)) := by
  unfold InitCmd.select
  split_ifs
  · exact .inl ⟨s, rfl, .inl rfl⟩
  · cases t.backend with
    | none => exact .inl ⟨s, rfl, .inl rfl⟩
    | some backend =>
        simp only
        cases backend.probe with
        | failed => exact .inl ⟨s, rfl, .inl rfl⟩
        | raised => exact .inl ⟨_, rfl, .inr (.inl rfl)⟩
        | ok probed =>
            simp only
            cases hmanifest : (s.fetch i.fetched).manifest with
            | none => exact .inl ⟨_, rfl, .inr (.inr rfl)⟩
            | some variants =>
                simp only
                cases hfind : findVariantInManifest py variants (t.variant probed) with
                | none => exact .inl ⟨_, rfl, .inr (.inr rfl)⟩
                | some entry =>
                    exact .inr ⟨backend, variants, entry, rfl, mem_of_find hfind, rfl⟩

variable (files) in
-- The loop at work: what was done so far is of the command, and a manifest that it holds
-- is the one it was given.
structure Working (i : InitCmd) (start : Bench ι) (s : Loop ι) : Prop where
  does : start.Does ((Command.init i).Effect files) s.bench
  manifest : ∀ variants, s.manifest = some variants → i.fetched = .manifest variants

variable {start : Bench ι} {s : Loop ι}

omit [DecidableEq ι] in
theorem fetch_bench (s : Loop ι) (fetched : Fetched) : (s.fetch fetched).bench = s.bench := by
  unfold Loop.fetch
  cases s.manifest with
  | some variants => rfl
  | none => cases fetched <;> rfl

theorem flash_manifest (s : Loop ι) (t : Target) (backend : Backend) (entry : Variant) :
    (s.flash files t backend entry).manifest = s.manifest := by
  unfold Loop.flash
  cases entry.filename with
  | none => rfl
  | some filename =>
      simp only
      rcases t.obtain files s.bench entry (files.path filename) with ⟨(_ | _) | _, bench⟩ <;> rfl

theorem Working.fetch (h : Working files i start s) : Working files i start (s.fetch i.fetched) := by
  refine ⟨fetch_bench s i.fetched ▸ h.does, fun variants hmanifest => ?_⟩
  unfold Loop.fetch at hmanifest
  cases hs : s.manifest with
  | some held =>
      simp only [hs] at hmanifest
      exact h.manifest variants (hs.trans hmanifest)
  | none =>
      cases hfetched : i.fetched with
      | manifest given =>
          simp only [hs, hfetched] at hmanifest
          rw [Option.some.inj hmanifest]
      | downloadError =>
          simp only [hs, hfetched] at hmanifest
          cases hmanifest
      | raised =>
          simp only [hs, hfetched] at hmanifest
          cases hmanifest

theorem Working.target (ht : t ∈ i.targets) (h : Working files i start s) :
    Working files i start (i.target py files s t) := by
  unfold InitCmd.target
  cases s.exit with
  | some exit => exact h
  | none =>
      rcases select_cases py i s t with
        ⟨s', hselect, rfl | rfl | rfl⟩ | ⟨backend, variants, entry, hmanifest, hmem, hselect⟩
      · simp only [hselect]
        exact h
      · simp only [hselect]
        exact ⟨h.does, h.manifest⟩
      · simp only [hselect]
        exact h.fetch
      · simp only [hselect]
        have hflash : (s.fetch i.fetched).bench.Does ((Command.init i).Effect files) _ :=
          flash_does (s.fetch i.fetched) (h.fetch.manifest _ hmanifest) hmem ht backend
        refine ⟨h.fetch.does.trans hflash, ?_⟩
        rw [flash_manifest]
        exact h.fetch.manifest

theorem init_does (s : Bench ι) : s.Does ((Command.init i).Effect files) (i.run py files s).2 := by
  have hsub : ∀ t ∈ i.toFlash, t ∈ i.targets := by
    intro t ht
    unfold InitCmd.toFlash at ht
    split_ifs at ht
    · cases ht
    · exact ht
  have hstart : Working files i s (Loop.start s) := ⟨.refl, nofun⟩
  exact (List.foldlRecOn (motive := Working files i s) i.toFlash _ hstart
    fun _ h t ht => h.target (hsub t ht)).does

theorem perform_does (s : Bench ι) (command : Command) :
    s.Does (command.Effect files) (s.perform py files command) := by
  cases command with
  | download d => exact download_does s
  | init i => exact init_does s

theorem run_does (s : Bench ι) (commands : List Command) :
    s.Does (fun disk event => ∃ command ∈ commands, command.Effect files disk event)
      (s.run py files commands) :=
  List.foldlRecOn (motive := fun s' => s.Does _ s') commands _ .refl fun s' h command hmem =>
    h.trans ((perform_does s' command).mono fun _ _ heffect => ⟨command, hmem, heffect⟩)

end Milo.Host.Flash

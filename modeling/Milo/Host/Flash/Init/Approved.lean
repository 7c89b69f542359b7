import Milo.Host.Flash.Init

-- What milo init has seen of a device when it flashes it.
namespace Milo.Host.Flash.Init

open Milo.Lib Milo.Lib.Program Milo.Host.Mcp

abbrev Log := List (Event Answer)

def flashedBy (e : Event Answer) : Option DetectedDevice :=
  match e.call with
  | .flash _ dev _ _ => some dev
  | _ => none

def flashed (past : Log) : List DetectedDevice := past.filterMap flashedBy

theorem flashed_snoc (past : Log) (e : Event Answer) :
    flashed (past ++ [e]) = flashed past ++ (flashedBy e).toList := by
  unfold flashed
  rw [List.filterMap_append]
  cases h : flashedBy e with
  | none => rw [List.filterMap_cons_none h]; rfl
  | some dev => rw [List.filterMap_cons_some h]; rfl

-- The first of the candidates whose backend finds its board at the port, or the only one.
def Chosen (past : Log) (dev : DetectedDevice) (family : BoardFamily) : Prop :=
  dev.candidateFamilies = [family] ∨
    ∃ earlier later, dev.candidateFamilies = earlier ++ family :: later ∧
      (∃ found, ⟨.probe family.flashBackend dev, .ok found⟩ ∈ past) ∧
      ∀ other ∈ earlier, ⟨.getBackend other.flashBackend, false⟩ ∈ past ∨
        ⟨.probe other.flashBackend dev, .failed⟩ ∈ past

section Approved

variable (py : Builtins) (args : Args)

-- The first entry of the manifest for a variant, whatever the case of its letters.
def FirstFor (variant : String) (entry manifest : Json) : Prop :=
  ∃ members before after, manifest = .object members ∧
    get members "variants" = some (.array (before ++ entry :: after)) ∧
    (∃ name, entryVariant entry = some name ∧ py.lower name = py.lower variant) ∧
    ∀ v ∈ before, ∃ name, entryVariant v = some name ∧ py.lower name ≠ py.lower variant

-- The file lies in the cache or has just come in whole.
def Obtained (past : Log) (entry : Json) (path : FirmwarePath) : Prop :=
  item "filename" entry = some (.str path.name) ∧ path.cacheDir = args.cacheDir ∧
    (⟨.fileExists path, .ok true⟩ ∈ past ∨
      ∃ url, item "url" entry = some url ∧ ⟨.downloadFirmware url path, .ok ()⟩ ∈ past)

def Confirmed (past : Log) (family : BoardFamily) (dev : DetectedDevice) : Prop :=
  args.yes = true ∨ ∃ typed, ⟨.input family dev, typed⟩ ∈ past ∧ confirm py typed = true

-- A device that there is something to flash on.
structure Wanted (past : Log) (dev : DetectedDevice) (family : BoardFamily) : Prop where
  candidate : family ∈ dev.candidateFamilies
  silent : ⟨.probeMiloFirmware dev, .silent⟩ ∈ past
  chosen : Chosen past dev family

structure Approved (past : Log) (dev : DetectedDevice) (family : BoardFamily) (found : Option String)
    (manifest entry : Json) (path : FirmwarePath) (variant : Option String) : Prop where
  notDry : args.dryRun = false
  passes : args.passes dev = true
  wanted : Wanted past dev family
  confirmed : Confirmed py args past family dev
  probed : ⟨.probe family.flashBackend dev, .ok found⟩ ∈ past
  fetched : ⟨.fetchManifest args.manifestUrl, .manifest manifest⟩ ∈ past
  first : ∃ name, family.variant found = some name ∧ variant = some name ∧
    FirstFor py name entry manifest
  obtained : Obtained args past entry path

-- A flash is approved by what came before it, and is the first of its device.
def Good (devices : List DetectedDevice) (past : Log) (e : Event Answer) : Prop :=
  match e.call with
  | .flash backend dev path variant =>
      (flashed past ++ [dev]).Sublist (devices.filter args.passes) ∧
        ∃ family found manifest entry, backend = family.flashBackend ∧
          Approved py args past dev family found manifest entry path variant
  | _ => True

end Approved

-- The log goes on without a flash.
def Later (past past' : Log) : Prop := ∃ more, past' = past ++ more ∧ flashed more = []

section Later

variable {past past' past'' : Log}

theorem Later.refl (past : Log) : Later past past := ⟨[], (List.append_nil past).symm, rfl⟩

theorem Later.trans (h : Later past past') (h' : Later past' past'') : Later past past'' := by
  obtain ⟨more, rfl, hmore⟩ := h
  obtain ⟨more', rfl, hmore'⟩ := h'
  refine ⟨more ++ more', List.append_assoc .., ?_⟩
  unfold flashed at hmore hmore' ⊢
  rw [List.filterMap_append, hmore, hmore', List.append_nil]

theorem Later.snoc (h : Later past past') {e : Event Answer} (he : flashedBy e = none) :
    Later past (past' ++ [e]) :=
  h.trans ⟨[e], rfl, by simp [flashed, he]⟩

theorem Later.subset (h : Later past past') : past ⊆ past' := by
  obtain ⟨more, rfl, -⟩ := h
  exact List.subset_append_left past more

theorem Later.flashed_eq (h : Later past past') : flashed past' = flashed past := by
  obtain ⟨more, rfl, hmore⟩ := h
  unfold flashed at hmore ⊢
  rw [List.filterMap_append, hmore, List.append_nil]

theorem Wanted.mono {dev : DetectedDevice} {family : BoardFamily} (hpast : past ⊆ past')
    (h : Wanted past dev family) : Wanted past' dev family := by
  refine ⟨h.candidate, hpast h.silent, ?_⟩
  rcases h.chosen with honly | ⟨earlier, later, hfamilies, ⟨found, hfound⟩, hearlier⟩
  · exact .inl honly
  · refine .inr ⟨earlier, later, hfamilies, ⟨found, hpast hfound⟩, fun other hother => ?_⟩
    exact (hearlier other hother).imp (fun h => hpast h) fun h => hpast h

end Later

theorem firstEntry_first (py : Builtins) {variant : String} {values : List Json} {entry : Json}
    (h : firstEntry py variant values = .ok (some entry)) :
    ∃ before after, values = before ++ entry :: after ∧
      (∃ name, entryVariant entry = some name ∧ py.lower name = py.lower variant) ∧
      ∀ v ∈ before, ∃ name, entryVariant v = some name ∧ py.lower name ≠ py.lower variant := by
  induction values with
  | nil => cases h
  | cons v values ih =>
      unfold firstEntry at h
      cases hname : entryVariant v with
      | none =>
          rw [hname] at h
          cases h
      | some name =>
          rw [hname] at h
          dsimp only at h
          split_ifs at h with hlower
          · obtain rfl := Option.some.inj (Except.ok.inj h)
            exact ⟨[], values, rfl, ⟨name, hname, hlower⟩, fun v hv => absurd hv List.not_mem_nil⟩
          · obtain ⟨before, after, rfl, hentry, hbefore⟩ := ih h
            refine ⟨v :: before, after, rfl, hentry, ?_⟩
            exact List.forall_mem_cons.mpr ⟨⟨name, hname, hlower⟩, hbefore⟩

-- No entry is a string.
theorem firstEntry_strings (py : Builtins) {variant : String} {values : List Json} {entry : Json}
    (hvalues : ∀ v ∈ values, ∃ s, v = .str s) : firstEntry py variant values ≠ .ok (some entry) := by
  intro h
  obtain ⟨before, after, rfl, ⟨name, hname, -⟩, -⟩ := firstEntry_first py h
  obtain ⟨s, rfl⟩ := hvalues entry (List.mem_append_right before List.mem_cons_self)
  cases hname

theorem findVariantInManifest_first (py : Builtins) {manifest entry : Json} {variant : Option String}
    (h : findVariantInManifest py manifest variant = .ok (some entry)) :
    ∃ name, variant = some name ∧ FirstFor py name entry manifest := by
  unfold findVariantInManifest at h
  cases variant with
  | none => cases h
  | some name =>
      cases manifest with
      | object members =>
          dsimp only at h
          cases hvariants : get members "variants" with
          | none =>
              rw [hvariants] at h
              cases h
          | some value =>
              rw [hvariants] at h
              cases value with
              | array values =>
                  obtain ⟨before, after, rfl, hentry, hbefore⟩ := firstEntry_first py h
                  exact ⟨name, rfl, members, before, after, rfl, hvariants, hentry, hbefore⟩
              | object inner =>
                  refine absurd h (firstEntry_strings py fun v hv => ?_)
                  obtain ⟨member, -, rfl⟩ := List.mem_map.mp hv
                  exact ⟨member.1, rfl⟩
              | str s =>
                  refine absurd h (firstEntry_strings py fun v hv => ?_)
                  obtain ⟨c, -, rfl⟩ := List.mem_map.mp hv
                  exact ⟨c.toString, rfl⟩
              | _ => cases h
      | _ => cases h

section Steps

variable (py : Builtins) (args : Args) {devices : List DetectedDevice} {past : Log}

theorem firstProbing_keeps (dev : DetectedDevice) (families : List BoardFamily) :
    Keeps (Good py args devices) past (firstProbing dev families) fun past' picked =>
      Later past past' ∧ ∀ family, picked = some family →
        ∃ earlier later, families = earlier ++ family :: later ∧
          (∃ found, ⟨.probe family.flashBackend dev, .ok found⟩ ∈ past') ∧
          ∀ other ∈ earlier, ⟨.getBackend other.flashBackend, false⟩ ∈ past' ∨
            ⟨.probe other.flashBackend dev, .failed⟩ ∈ past' := by
  induction families generalizing past with
  | nil => exact ⟨.refl past, fun family h => by cases h⟩
  | cons first families ih =>
      refine (keeps_ask _ _).mpr fun registered => ⟨trivial, ?_⟩
      have hasked : Later past (past ++ [⟨.getBackend first.flashBackend, registered⟩]) :=
        (Later.refl past).snoc rfl
      -- the families behind, when this one is none of them
      have hrest : ∀ past', Later past past' →
          (⟨.getBackend first.flashBackend, false⟩ ∈ past' ∨
            ⟨.probe first.flashBackend dev, .failed⟩ ∈ past') →
          Keeps (Good py args devices) past' (firstProbing dev families) fun past' picked =>
            Later past past' ∧ ∀ family, picked = some family →
              ∃ earlier later, first :: families = earlier ++ family :: later ∧
                (∃ found, ⟨.probe family.flashBackend dev, .ok found⟩ ∈ past') ∧
                ∀ other ∈ earlier, ⟨.getBackend other.flashBackend, false⟩ ∈ past' ∨
                  ⟨.probe other.flashBackend dev, .failed⟩ ∈ past' := by
        intro past' hlater hfirst
        refine ih.mono fun past'' picked ⟨hlater', hpicked⟩ => ⟨hlater.trans hlater', ?_⟩
        intro family hfamily
        obtain ⟨earlier, later, rfl, hfound, hearlier⟩ := hpicked family hfamily
        refine ⟨first :: earlier, later, rfl, hfound, List.forall_mem_cons.mpr ⟨?_, hearlier⟩⟩
        exact hfirst.imp (fun h => hlater'.subset h) fun h => hlater'.subset h
      cases registered with
      | false => exact hrest _ hasked (.inl (List.mem_append_right past List.mem_cons_self))
      | true =>
          refine (keeps_ask _ _).mpr fun result => ⟨trivial, ?_⟩
          have hprobed := hasked.snoc (e := ⟨.probe first.flashBackend dev, result⟩) rfl
          have hmem := List.mem_append_right (past ++ [⟨.getBackend first.flashBackend, true⟩])
            (List.mem_singleton_self (⟨.probe first.flashBackend dev, result⟩ : Event Answer))
          cases result with
          | raised => trivial
          | failed => exact hrest _ hprobed (.inr hmem)
          | ok found =>
              refine ⟨hprobed, fun family hfamily => ?_⟩
              obtain rfl := Option.some.inj hfamily
              exact ⟨[], families, rfl, ⟨found, hmem⟩, fun other h => absurd h List.not_mem_nil⟩

theorem pickFamily_keeps (dev : DetectedDevice) :
    Keeps (Good py args devices) past (pickFamily dev) fun past' picked =>
      Later past past' ∧ ∀ family, picked = some family →
        family ∈ dev.candidateFamilies ∧ Chosen past' dev family := by
  unfold pickFamily
  split
  · rename_i only hfamilies
    refine ⟨.refl past, fun family hfamily => ?_⟩
    obtain rfl := Option.some.inj hfamily
    exact ⟨hfamilies ▸ List.mem_singleton_self only, .inl hfamilies⟩
  · refine (firstProbing_keeps py args dev _).mono fun past' picked ⟨hlater, hpicked⟩ => ?_
    refine ⟨hlater, fun family hfamily => ?_⟩
    obtain ⟨earlier, later, hfamilies, hfound, hearlier⟩ := hpicked family hfamily
    refine ⟨?_, .inr ⟨earlier, later, hfamilies, hfound, hearlier⟩⟩
    rw [hfamilies]
    exact List.mem_append_right earlier List.mem_cons_self

-- What there is to flash after some of the devices.
def Scanned (front : List DetectedDevice) (past : Log) (targets : List (DetectedDevice × BoardFamily)) :
    Prop :=
  flashed past = [] ∧ (targets.map Prod.fst).Sublist front ∧
    ∀ target ∈ targets, Wanted past target.1 target.2

theorem Scanned.skip {front : List DetectedDevice} {targets : List (DetectedDevice × BoardFamily)}
    {past' : Log} (h : Scanned front past targets) (hlater : Later past past') (dev : DetectedDevice) :
    Scanned (front ++ [dev]) past' targets := by
  obtain ⟨hflashed, hsublist, hwanted⟩ := h
  refine ⟨hlater.flashed_eq.trans hflashed, hsublist.trans (List.sublist_append_left front [dev]), ?_⟩
  exact fun target htarget => (hwanted target htarget).mono hlater.subset

theorem scan_keeps {front : List DetectedDevice} {targets : List (DetectedDevice × BoardFamily)}
    (h : Scanned front past targets) (dev : DetectedDevice) :
    Keeps (Good py args devices) past (scan targets dev) (Scanned (front ++ [dev])) := by
  unfold scan
  split
  · exact h.skip (.refl past) dev
  · refine (keeps_ask _ _).mpr fun answer => ⟨trivial, ?_⟩
    have hasked := (Later.refl past).snoc (e := ⟨.probeMiloFirmware dev, answer⟩) rfl
    cases answer with
    | raised => trivial
    | version version => exact h.skip hasked dev
    | silent =>
        refine (pickFamily_keeps py args dev).bind fun past' picked ⟨hlater, hpicked⟩ => ?_
        have hscanned := h.skip (hasked.trans hlater) dev
        cases picked with
        | none => exact hscanned
        | some family =>
            obtain ⟨hflashed, -, hwanted⟩ := hscanned
            obtain ⟨hcandidate, hchosen⟩ := hpicked family rfl
            refine ⟨hflashed, ?_, ?_⟩
            · rw [List.map_append]
              exact h.2.1.append (List.Sublist.refl [dev])
            · intro target htarget
              rcases List.mem_append.mp htarget with htarget | htarget
              · exact hwanted target htarget
              · obtain rfl := List.mem_singleton.mp htarget
                have hsilent := List.mem_append_right past
                  (List.mem_singleton_self (⟨.probeMiloFirmware dev, .silent⟩ : Event Answer))
                exact ⟨hcandidate, hlater.subset hsilent, hchosen⟩

theorem confirmed_keeps (family : BoardFamily) (dev : DetectedDevice) :
    Keeps (Good py args devices) past (confirmed py args family dev) fun past' answer =>
      Later past past' ∧ (answer = true → Confirmed py args past' family dev) := by
  unfold confirmed
  split
  · rename_i hyes
    exact ⟨.refl past, fun _ => .inl hyes⟩
  · refine fun typed => ⟨trivial, (Later.refl past).snoc rfl, fun hconfirm => .inr ⟨typed, ?_, hconfirm⟩⟩
    exact List.mem_append_right past List.mem_cons_self

-- A manifest in use has been fetched.
def Known (past : Log) (manifest : Json) : Prop :=
  manifest = .null ∨ ⟨.fetchManifest args.manifestUrl, .manifest manifest⟩ ∈ past

theorem fetched_keeps {manifest : Json} (h : Known args past manifest) :
    Keeps (Good py args devices) past (fetched args manifest) fun past' manifest =>
      Later past past' ∧ ⟨.fetchManifest args.manifestUrl, .manifest manifest⟩ ∈ past' := by
  unfold fetched
  split
  · refine (keeps_ask _ _).mpr fun answer => ⟨trivial, ?_⟩
    cases answer with
    | manifest value => exact ⟨(Later.refl past).snoc rfl, List.mem_append_right past List.mem_cons_self⟩
    | downloadError => trivial
    | raised => trivial
  · rename_i hnull
    exact ⟨.refl past, h.resolve_left fun h => hnull h⟩

theorem obtain_keeps (entry : Json) :
    Keeps (Good py args devices) past (obtain args entry) fun past' path =>
      Later past past' ∧ ∀ p, path = some p → Obtained args past' entry p := by
  refine (keeps_ask _ _).mpr fun made => ⟨trivial, ?_⟩
  have hmade := (Later.refl past).snoc (e := ⟨.mkdir args.cacheDir, made⟩) rfl
  cases made with
  | error _ => trivial
  | ok _ =>
      dsimp only
      split
      · rename_i filename hfilename
        refine (keeps_ask _ _).mpr fun found => ⟨trivial, ?_⟩
        have hfound := hmade.snoc
          (e := ⟨.fileExists { cacheDir := args.cacheDir, name := filename }, found⟩) rfl
        cases found with
        | error _ => trivial
        | ok there =>
            cases there with
            | true =>
                refine ⟨hfound, fun p hp => ?_⟩
                obtain rfl := Option.some.inj hp
                exact ⟨hfilename, rfl, .inl (List.mem_append_right _ List.mem_cons_self)⟩
            | false =>
                dsimp only
                split
                · trivial
                · rename_i url hurl
                  refine (keeps_ask _ _).mpr fun downloaded => ⟨trivial, ?_⟩
                  have hdownloaded := hfound.snoc
                    (e := ⟨.downloadFirmware url { cacheDir := args.cacheDir, name := filename },
                      downloaded⟩) rfl
                  rcases downloaded with (_ | _) | _
                  · exact ⟨hdownloaded, fun p hp => by cases hp⟩
                  · trivial
                  · refine ⟨hdownloaded, fun p hp => ?_⟩
                    obtain rfl := Option.some.inj hp
                    exact ⟨hfilename, rfl, .inr ⟨url, hurl, List.mem_append_right _ List.mem_cons_self⟩⟩
      · trivial

-- What a target's turn leaves: it may have flashed its device.
structure Turned (past : Log) (dev : DetectedDevice) (past' : Log) (manifest : Json) : Prop where
  subset : past ⊆ past'
  flashed : flashed past' = flashed past ∨ flashed past' = flashed past ++ [dev]
  known : Known args past' manifest

variable {dev : DetectedDevice} {family : BoardFamily} {manifest : Json}

theorem Turned.skip {past' : Log} (hlater : Later past past') (hknown : Known args past' manifest) :
    Turned args past dev past' manifest :=
  ⟨hlater.subset, .inl hlater.flashed_eq, hknown⟩

theorem Known.later {past' : Log} (hlater : Later past past') (h : Known args past manifest) :
    Known args past' manifest :=
  h.imp_right fun h => hlater.subset h

theorem flashVariant_keeps {found : Option String} (hdry : args.dryRun = false)
    (hsublist : (flashed past ++ [dev]).Sublist (devices.filter args.passes))
    (hpasses : args.passes dev = true) (hwanted : Wanted past dev family)
    (hconfirmed : Confirmed py args past family dev)
    (hprobed : ⟨.probe family.flashBackend dev, .ok found⟩ ∈ past) (hknown : Known args past manifest) :
    Keeps (Good py args devices) past
      (flashVariant py args manifest dev family (family.variant found)) (Turned args past dev) := by
  refine (fetched_keeps py args hknown).bind fun past₁ manifest ⟨hlater₁, hfetched₁⟩ => ?_
  split
  · trivial
  · exact .skip args hlater₁ (.inr hfetched₁)
  · rename_i entry hentry
    refine (obtain_keeps py args entry).bind fun past₂ path ⟨hlater₂, hobtained⟩ => ?_
    have hlater := hlater₁.trans hlater₂
    have hfetched := hlater₂.subset hfetched₁
    cases path with
    | none => exact .skip args hlater (.inr hfetched)
    | some path =>
        refine (keeps_ask _ _).mpr fun result => ⟨⟨hlater.flashed_eq ▸ hsublist, ?_⟩, ?_⟩
        · obtain ⟨name, hname, hfirst⟩ := findVariantInManifest_first py hentry
          refine ⟨family, found, manifest, entry, rfl, hdry, hpasses, hwanted.mono hlater.subset, ?_,
            hlater.subset hprobed, hfetched, ⟨name, hname, hname, hfirst⟩, hobtained path rfl⟩
          exact hconfirmed.imp_right fun ⟨typed, htyped, hyes⟩ => ⟨typed, hlater.subset htyped, hyes⟩
        · have hturned : Turned args past dev
              (past₂ ++ [⟨.flash family.flashBackend dev path (family.variant found), result⟩]) manifest := by
            refine ⟨fun e he => List.mem_append_left _ (hlater.subset he), .inr ?_,
              .inr (List.mem_append_left _ hfetched)⟩
            rw [flashed_snoc, hlater.flashed_eq]
            rfl
          cases result with
          | raised => trivial
          | ok => exact hturned
          | failed => exact hturned

theorem flashTarget_keeps (hdry : args.dryRun = false)
    (hsublist : (flashed past ++ [dev]).Sublist (devices.filter args.passes))
    (hpasses : args.passes dev = true) (hwanted : Wanted past dev family)
    (hknown : Known args past manifest) :
    Keeps (Good py args devices) past (flashTarget py args manifest (dev, family))
      (Turned args past dev) := by
  refine (confirmed_keeps py args family dev).bind fun past₁ yes ⟨hlater₁, hyes⟩ => ?_
  cases yes with
  | false => exact .skip args hlater₁ (hknown.later args hlater₁)
  | true =>
      refine (keeps_ask _ _).mpr fun registered => ⟨trivial, ?_⟩
      have hlater₂ := hlater₁.snoc (e := ⟨.getBackend family.flashBackend, registered⟩) rfl
      cases registered with
      | false => exact .skip args hlater₂ (hknown.later args hlater₂)
      | true =>
          refine (keeps_ask _ _).mpr fun result => ⟨trivial, ?_⟩
          have hlater := hlater₂.snoc (e := ⟨.probe family.flashBackend dev, result⟩) rfl
          cases result with
          | raised => trivial
          | failed => exact .skip args hlater (hknown.later args hlater)
          | ok found =>
              have hkeeps := flashVariant_keeps py args hdry (hlater.flashed_eq ▸ hsublist) hpasses
                (hwanted.mono hlater.subset) ?_ (List.mem_append_right _ List.mem_cons_self)
                (hknown.later args hlater)
              · refine hkeeps.mono fun past' manifest h => ⟨?_, ?_, h.known⟩
                · exact fun e he => h.subset (hlater.subset he)
                · rw [← hlater.flashed_eq]
                  exact h.flashed
              · refine (hyes rfl).imp_right fun ⟨typed, htyped, hconfirm⟩ => ⟨typed, ?_, hconfirm⟩
                exact List.mem_append_left _ (List.mem_append_left _ htyped)

-- The flashes of the targets so far are of as many of them, in their order.
def Flashing (targets front : List (DetectedDevice × BoardFamily)) (past : Log) (manifest : Json) : Prop :=
  (flashed past).Sublist (front.map Prod.fst) ∧ (∀ target ∈ targets, Wanted past target.1 target.2) ∧
    Known args past manifest

theorem targets_keep {targets : List (DetectedDevice × BoardFamily)} (hdry : args.dryRun = false)
    (hsublist : (targets.map Prod.fst).Sublist (devices.filter args.passes))
    (hwanted : ∀ target ∈ targets, Wanted past target.1 target.2) (hflashed : flashed past = []) :
    Keeps (Good py args devices) past (targets.foldlM (flashTarget py args) .null)
      (Flashing args targets targets) := by
  refine keeps_foldlM (Flashing args targets) (fun front target back past manifest htargets h => ?_)
    ⟨by rw [hflashed]; exact List.nil_sublist _, hwanted, .inl rfl⟩
  obtain ⟨hfront, hwanted, hknown⟩ := h
  have hmem : target ∈ targets := htargets ▸ List.mem_append_right front List.mem_cons_self
  have hnext : (flashed past ++ [target.1]).Sublist ((front ++ [target]).map Prod.fst) := by
    rw [List.map_append]
    exact hfront.append (List.Sublist.refl [target.1])
  have hall : ((front ++ [target]).map Prod.fst).Sublist (devices.filter args.passes) := by
    refine List.Sublist.trans ?_ hsublist
    rw [htargets]
    exact ((List.Sublist.refl front).append (by simp)).map Prod.fst
  have hpasses : args.passes target.1 = true :=
    (List.mem_filter.mp (hsublist.subset (List.mem_map_of_mem hmem))).2
  have hkeeps : Keeps (Good py args devices) past (flashTarget py args manifest target)
      (Turned args past target.1) :=
    flashTarget_keeps py args hdry (hnext.trans hall) hpasses (hwanted target hmem) hknown
  refine hkeeps.mono fun past' manifest h => ⟨?_, ?_, h.known⟩
  · rcases h.flashed with heq | heq
    · rw [heq, List.map_append]
      exact hfront.trans (List.sublist_append_left _ _)
    · exact heq ▸ hnext
  · exact fun target htarget => (hwanted target htarget).mono h.subset

theorem run_keeps :
    Keeps (Good py args devices) [] (run py args devices) fun _ _ => True := by
  unfold run
  dsimp only
  split
  · split
    · trivial
    · trivial
  · have hscan : Keeps (Good py args devices) [] ((devices.filter args.passes).foldlM scan [])
        (Scanned (devices.filter args.passes)) :=
      keeps_foldlM Scanned (fun front dev back past targets _ h => scan_keeps py args h dev)
        ⟨rfl, List.Sublist.refl [], fun target h => absurd h List.not_mem_nil⟩
    refine hscan.bind fun past targets ⟨hflashed, hsublist, hwanted⟩ => ?_
    split
    · trivial
    · rename_i hgo
      have hdry : args.dryRun = false := by
        cases hdry : args.dryRun with
        | false => rfl
        | true => simp [hdry] at hgo
      exact (targets_keep py args hdry hsublist hwanted hflashed).bind fun _ _ _ => trivial

end Steps

-- The devices flashed so far are among those to flash, each at most as often.
theorem flashed_sublist (py : Builtins) (args : Args) {devices : List DetectedDevice} {past events : Log}
    (h : EachGood (Good py args devices) past events)
    (hpast : (flashed past).Sublist (devices.filter args.passes)) :
    (flashed (past ++ events)).Sublist (devices.filter args.passes) := by
  induction events generalizing past with
  | nil => rwa [List.append_nil]
  | cons e events ih =>
      obtain ⟨hgood, hrest⟩ := h
      have hnext : (flashed (past ++ [e])).Sublist (devices.filter args.passes) := by
        rw [flashed_snoc]
        rcases e with ⟨c, answer⟩
        cases c with
        | flash backend dev path variant => exact hgood.1
        | _ => exact (List.append_nil (flashed past)).symm ▸ hpast
      have hlast := ih hrest hnext
      rwa [List.append_assoc] at hlast

-- Whatever the command is answered: it flashes a device of its list at most once, one that
-- passes --port, and only after all that approves it; with --dry-run it flashes none.
theorem run_flashes (py : Builtins) (args : Args) (devices : List DetectedDevice) (events : Log)
    (outcome : Except Exit Unit) (hruns : Runs (run py args devices) events outcome) :
    (flashed events).Sublist (devices.filter args.passes) ∧
    (args.dryRun = true → flashed events = []) ∧
    ∀ before after backend dev path variant result,
      events = before ++ ⟨.flash backend dev path variant, result⟩ :: after →
      ∃ family found manifest entry, backend = family.flashBackend ∧
        Approved py args before dev family found manifest entry path variant := by
  have hkeeps : Keeps (Good py args devices) [] (run py args devices) fun _ _ => True := run_keeps py args
  obtain ⟨heach, -⟩ := hkeeps.runs hruns
  have happroved : ∀ before after backend dev path variant result,
      events = before ++ ⟨.flash backend dev path variant, result⟩ :: after →
      ∃ family found manifest entry, backend = family.flashBackend ∧
        Approved py args before dev family found manifest entry path variant := by
    intro before after backend dev path variant result hevents
    exact (heach.split hevents).2
  refine ⟨flashed_sublist py args heach (List.nil_sublist _), fun hdry => ?_, happroved⟩
  refine List.filterMap_eq_nil_iff.mpr fun e he => ?_
  obtain ⟨before, after, hevents⟩ := List.append_of_mem he
  rcases e with ⟨c, answer⟩
  cases c with
  | flash backend dev path variant =>
      obtain ⟨_, _, _, _, -, happroved⟩ := happroved _ _ _ _ _ _ _ hevents
      rw [happroved.notDry] at hdry
      cases hdry
  | _ => rfl

-- A blank board on a bench where all goes well; nothing there has a capital letter.
def blankBoard : DetectedDevice where
  port := "/dev/ttyACM0"
  candidateFamilies := [{
    displayName := "Espressif ESP32 family"
    flashBackend := "esptool"
    variants := ["esp32", "esp32c3"] }]

def benchBuiltins : Builtins where
  lower := id
  isdigit raw := raw ≠ "" && raw.all Char.isDigit
  int := String.toInt?
  sha256 _ := ""

def benchArgs : Args where
  port := none
  yes := false
  manifestUrl := "https://example.com/manifest.json"
  cacheDir := "./firmware"
  dryRun := false

def bench : (c : Call) → Answer c
  | .probeMiloFirmware _ => .silent
  | .input _ _ => some "y"
  | .getBackend _ => true
  | .probe _ _ => .ok (some "esp32c3")
  | .fetchManifest _ => .manifest (.object [("variants", .array [.object [
      ("variant", .str "esp32c3"), ("filename", .str "milo-receiver-esp32c3.bin"),
      ("url", .str "https://example.com/fw.bin")]])])
  | .mkdir _ => .ok ()
  | .fileExists _ => .ok false
  | .downloadFirmware _ _ => .ok ()
  | .flash _ _ _ _ => .ok

theorem blankBoard_flashed :
    flashed ((run benchBuiltins benchArgs [blankBoard]).play bench).1 =
        [blankBoard] ∧
      (flashed ((run benchBuiltins benchArgs [blankBoard]).play bench).1).Sublist
        ([blankBoard].filter benchArgs.passes) :=
  ⟨rfl, (run_flashes _ _ _ _ _ (runs_play bench _)).1⟩

end Milo.Host.Flash.Init

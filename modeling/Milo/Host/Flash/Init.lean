import Milo.Host.Flash
import Milo.Host.Mcp
import Milo.Lib.Calls

-- The command milo init from the ports it finds on, with what it asks for on the way.
namespace Milo.Host.Flash.Init

open Milo.Lib Milo.Host.Mcp

structure BoardFamily where
  displayName : String
  flashBackend : String
  variants : List String
deriving DecidableEq

structure DetectedDevice where
  port : String
  candidateFamilies : List BoardFamily
deriving DecidableEq

structure Args where
  port : Option String
  yes : Bool
  manifestUrl : String
  cacheDir : String
  dryRun : Bool

-- The path cache_dir / name.
structure FirmwarePath where
  cacheDir : String
  name : String
deriving DecidableEq

-- What _probe_milo_firmware makes of a port: the version that answered, or none.
inductive MiloProbe where
  | version (version : Json)
  | silent
  | raised

inductive ManifestAnswer where
  | manifest (value : Json)
  | downloadError
  | raised

-- What the command asks for outside of itself.
inductive Call where
  | probeMiloFirmware (dev : DetectedDevice)
  | input (family : BoardFamily) (dev : DetectedDevice)
  | getBackend (name : String)
  | probe (backend : String) (dev : DetectedDevice)
  | fetchManifest (url : String)
  | mkdir (cacheDir : String)
  | fileExists (path : FirmwarePath)
  | downloadFirmware (url : Json) (path : FirmwarePath)
  | flash (backend : String) (dev : DetectedDevice) (path : FirmwarePath) (variant : Option String)

-- The text at the prompt is as typed, stripped; a directory or a path may also be refused.
abbrev Answer : Call → Type
  | .probeMiloFirmware _ => MiloProbe
  | .input _ _ => Option String
  | .getBackend _ => Bool
  | .probe _ _ => ProbeResult
  | .fetchManifest _ => ManifestAnswer
  | .mkdir _ => Except Unit Unit
  | .fileExists _ => Except Unit Bool
  | .downloadFirmware _ _ => Except DownloadFailure Unit
  | .flash _ _ _ _ => FlashResult

abbrev Cli := Program Answer Exit

-- The call of a command, with the answer it gets.
def ask (c : Call) : Cli (Answer c) := Program.ask c

section Manifest

variable (py : Builtins)

-- `v.get("variant", "")` of an entry, which is there to be lowered.
def entryVariant : Json → Option String
  | .object members =>
      match (get members "variant").getD (.str "") with
      | .str variant => some variant
      | _ => none
  | _ => none

-- What `for v in value` goes through.
def elements : Json → Option (List Json)
  | .array values => some values
  | .object members => some (members.map fun member => .str member.1)
  | .str s => some (s.toList.map fun c => .str c.toString)
  | _ => none

def firstEntry (variant : String) : List Json → Except Exit (Option Json)
  | [] => .ok none
  | v :: values =>
      match entryVariant v with
      | none => .error .raised
      | some name =>
          if py.lower name = py.lower variant then .ok (some v) else firstEntry variant values

def findVariantInManifest (manifest : Json) (variant : Option String) : Except Exit (Option Json) :=
  match variant with
  | none => .ok none
  | some variant =>
      match manifest with
      | .object members =>
          match elements ((get members "variants").getD (.array [])) with
          | none => .error .raised
          | some values => firstEntry py variant values
      | _ => .error .raised

end Manifest

-- `entry[key]`
def item (key : String) : Json → Option Json
  | .object members => get members key
  | _ => none

section Entries

-- An entry as the manifest has it, without the keys that are missing.
def jsonOf (v : Variant) : Json :=
  let members := [("variant", v.variant), ("filename", v.filename), ("url", v.url), ("sha256", v.sha256)]
  .object (members.filterMap fun member => member.2.map fun s => (member.1, .str s))

theorem entryVariant_jsonOf (v : Variant) : entryVariant (jsonOf v) = some (v.variant.getD "") := by
  obtain ⟨variant, filename, url, sha256⟩ := v
  cases variant <;> cases filename <;> cases url <;> cases sha256 <;> rfl

theorem firstEntry_jsonOf (py : Builtins) (variant : String) (variants : List Variant) :
    firstEntry py variant (variants.map jsonOf) =
      .ok ((Flash.findVariantInManifest py variants (some variant)).map jsonOf) := by
  unfold Flash.findVariantInManifest
  induction variants with
  | nil => rfl
  | cons v variants ih =>
      rw [List.map_cons, firstEntry, entryVariant_jsonOf]
      dsimp only at ih ⊢
      by_cases hlower : py.lower (v.variant.getD "") = py.lower variant
      · rw [if_pos hlower, List.find?_cons_of_pos (by simpa using hlower)]
        rfl
      · rw [if_neg hlower, List.find?_cons_of_neg (by simpa using hlower), ih]

-- A manifest of such entries is searched as the list of them is.
theorem findVariantInManifest_jsonOf (py : Builtins) (variants : List Variant) (variant : Option String) :
    findVariantInManifest py (.object [("variants", .array (variants.map jsonOf))]) variant =
      .ok ((Flash.findVariantInManifest py variants variant).map jsonOf) := by
  cases variant with
  | none => rfl
  | some variant => exact firstEntry_jsonOf py variant variants

end Entries

section Run

variable (py : Builtins) (args : Args)

def firstProbing (dev : DetectedDevice) : List BoardFamily → Cli (Option BoardFamily)
  | [] => return none
  | family :: families => do
      if ← ask (.getBackend family.flashBackend) then
        match ← ask (.probe family.flashBackend dev) with
        | .ok _ => return some family
        | .failed => firstProbing dev families
        | .raised => .raise .raised
      else firstProbing dev families

def pickFamily (dev : DetectedDevice) : Cli (Option BoardFamily) :=
  match dev.candidateFamilies with
  | [family] => return some family
  | candidates => firstProbing dev candidates

-- A turn of the loop that finds out what there is to flash.
def scan (targets : List (DetectedDevice × BoardFamily)) (dev : DetectedDevice) :
    Cli (List (DetectedDevice × BoardFamily)) := do
  if dev.candidateFamilies.isEmpty then return targets
  else
    match ← ask (.probeMiloFirmware dev) with
    | .raised => .raise .raised
    | .version _ => return targets
    | .silent =>
        match ← pickFamily dev with
        | none => return targets
        | some family => return targets ++ [(dev, family)]

def confirmed (family : BoardFamily) (dev : DetectedDevice) : Cli Bool := do
  if args.yes then return true
  else return confirm py (← ask (.input family dev))

-- The probed variant, or else the first of the family.
def BoardFamily.variant (family : BoardFamily) (probed : Option String) : Option String :=
  match probed with
  | none => family.variants.head?
  | some variant => if variant = "" then family.variants.head? else some variant

-- The manifest is fetched for the first target that needs it, and again as long as it is null.
def fetched (manifest : Json) : Cli Json :=
  match manifest with
  | .null => do
      match ← ask (.fetchManifest args.manifestUrl) with
      | .manifest value => return value
      | .downloadError => .raise (.code 1)
      | .raised => .raise .raised
  | _ => return manifest

-- The file of an entry, cached or downloaded; none if the download failed.
def obtain (entry : Json) : Cli (Option FirmwarePath) := do
  match ← ask (.mkdir args.cacheDir) with
  | .error _ => .raise .raised
  | .ok _ =>
      match item "filename" entry with
      | some (.str filename) =>
          let path : FirmwarePath := { cacheDir := args.cacheDir, name := filename }
          match ← ask (.fileExists path) with
          | .error _ => .raise .raised
          | .ok true => return some path
          | .ok false =>
              match item "url" entry with
              | none => .raise .raised
              | some url =>
                  match ← ask (.downloadFirmware url path) with
                  | .ok _ => return some path
                  | .error .downloadError => return none
                  | .error .raised => .raise .raised
      | _ => .raise .raised

-- The turn of a target behind its probe.
def flashVariant (manifest : Json) (dev : DetectedDevice) (family : BoardFamily)
    (variant : Option String) : Cli Json := do
  let manifest ← fetched args manifest
  match findVariantInManifest py manifest variant with
  | .error e => .raise e
  | .ok none => return manifest
  | .ok (some entry) =>
      match ← obtain args entry with
      | none => return manifest
      | some path =>
          match ← ask (.flash family.flashBackend dev path variant) with
          | .raised => .raise .raised
          | _ => return manifest

def flashTarget (manifest : Json) (target : DetectedDevice × BoardFamily) : Cli Json := do
  let (dev, family) := target
  if ← confirmed py args family dev then
    if ← ask (.getBackend family.flashBackend) then
      match ← ask (.probe family.flashBackend dev) with
      | .raised => .raise .raised
      | .failed => return manifest
      | .ok probed => flashVariant py args manifest dev family (family.variant probed)
    else return manifest
  else return manifest

-- An empty --port filters nothing.
def Args.passes (dev : DetectedDevice) : Bool :=
  match args.port with
  | none => true
  | some port => port = "" || dev.port = port

-- The command leaves with its exit code; at its end that is 0.
def run (devices : List DetectedDevice) : Cli Unit := do
  let devices := devices.filter args.passes
  if devices.isEmpty then
    if args.port.getD "" = "" then return else .raise (.code 1)
  else
    let targets ← devices.foldlM scan []
    if targets.isEmpty || args.dryRun then return
    else
      let _ ← targets.foldlM (flashTarget py args) .null
      return

end Run

end Milo.Host.Flash.Init

import Milo.Engine.Link
import Mathlib.Logic.Function.Basic

namespace Milo.Host.Flash

open Milo (Bytes)

-- str.lower, str.isdigit, int (which raises for some strings of digits) and the
-- hexdigest of sha256.
structure Builtins where
  lower : String → String
  isdigit : String → Bool
  int : String → Option Int
  sha256 : Bytes → String

-- An entry of the manifest, with none for a key that is missing or has no string.
structure Variant where
  variant : Option String
  filename : Option String
  url : Option String
  sha256 : Option String
deriving DecidableEq

-- An empty digest is none, as in `variant.get("sha256")`.
def Variant.declared (v : Variant) : Option String := v.sha256.filter (· ≠ "")

-- How a command ends.
inductive Exit where
  | code (status : ℕ)
  | raised
deriving DecidableEq

inductive Fetched where
  | manifest (variants : List Variant)
  | downloadError
  | raised

-- What the server does for the URL of a firmware: a body, which may be another's or cut
-- off; an URLError; or another exception, at the connection or when part of the body is
-- in the .part file.
inductive Response where
  | body (bytes : Bytes)
  | urlError
  | raised (written : Option Bytes)

inductive DownloadFailure where
  | downloadError
  | raised
deriving DecidableEq

-- A PurePosixPath: the names behind one another, from the root or from the working directory.
structure Path where
  absolute : Bool
  parts : List String
deriving DecidableEq

def Path.ofString (s : String) : Path where
  absolute := s.toList.head? = some '/'
  parts := ((s.toList.splitOn '/').map String.ofList).filter fun part => part ≠ "" && part ≠ "."

-- `dir / name`, which leads elsewhere for an absolute name.
def Path.join (dir : Path) (name : String) : Path :=
  let path := Path.ofString name
  if path.absolute then path else { dir with parts := dir.parts ++ path.parts }

-- `dest.with_suffix(dest.suffix + ".part")`, which raises for a path without a name.
def Path.part (dest : Path) : Option Path :=
  match dest.parts.getLast? with
  | none => none
  | some name => some { dest with parts := dest.parts.dropLast ++ [name ++ ".part"] }

-- What a path leads to: nothing yet, a file, a directory, nothing since its own directory is
-- missing, or something that the system does not even let look at.
inductive Node where
  | absent
  | file (bytes : Bytes)
  | directory
  | unreachable
  | refused
deriving DecidableEq

def Node.content : Node → Option Bytes
  | .file bytes => some bytes
  | _ => none

-- A file can be opened there to be written, and be replaced.
def Node.writable : Node → Bool
  | .absent => true
  | .file _ => true
  | _ => false

-- Different paths may lead to one place, through "..", links between directories, or names
-- that the file system does not tell apart. The commands make no directory but cache_dir,
-- which each of them makes first, so it is taken to be there, and they make no links.
structure Files (ι : Type) where
  cacheDir : Path
  locate : Path → ι

abbrev Disk (ι : Type) := ι → Node

-- What a command does: it writes a file, it removes one, or it hands one to a backend, for
-- an entry of the manifest.
inductive DiskEvent (ι : Type) where
  | put (place : ι) (bytes : Bytes)
  | removed (place : ι)
  | flashed (entry : Variant) (place : ι) (firmware : Option Bytes)

-- The disk, and all that was done so far, the last of it first.
structure Bench (ι : Type) where
  disk : Disk ι
  log : List (DiskEvent ι)

section Disk

variable {ι : Type} [DecidableEq ι]

def DiskEvent.apply (disk : Disk ι) : DiskEvent ι → Disk ι
  | .put place bytes => Function.update disk place (.file bytes)
  | .removed place => Function.update disk place .absent
  | .flashed _ _ _ => disk

def Bench.does (s : Bench ι) (event : DiskEvent ι) : Bench ι where
  disk := event.apply s.disk
  log := event :: s.log

def Bench.start (disk : Disk ι) : Bench ι where
  disk := disk
  log := []

end Disk

section Commands

variable {ι : Type} [DecidableEq ι] (py : Builtins) (files : Files ι)

-- `cache_dir / filename` and where it leads.
def Files.path (filename : String) : Path := files.cacheDir.join filename

def Files.place (filename : String) : ι := files.locate (files.path filename)

-- os.replace(tmp, dest) behind the download into tmp.
def replace (s : Bench ι) (tmp dest : ι) (bytes : Bytes) : Except DownloadFailure Unit × Bench ι :=
  if (s.disk dest).writable then (.ok (), (s.does (.removed tmp)).does (.put dest bytes))
  else (.error .raised, s)

def downloadFirmware (s : Bench ι) (dest : Path) (response : Response) :
    Except DownloadFailure Unit × Bench ι :=
  match dest.part with
  | none => (.error .raised, s)
  | some part =>
      let tmp := files.locate part
      match response with
      | .raised none => (.error .raised, s)
      | .urlError =>
          match s.disk tmp with
          | .file _ => (.error .downloadError, s.does (.removed tmp))
          | .absent => (.error .downloadError, s)
          | .unreachable => (.error .downloadError, s)
          | .directory => (.error .raised, s)
          | .refused => (.error .raised, s)
      | .raised (some written) =>
          if (s.disk tmp).writable then (.error .raised, s.does (.put tmp written))
          else (.error .raised, s)
      | .body bytes =>
          if (s.disk tmp).writable then
            replace (s.does (.put tmp bytes)) tmp (files.locate dest) bytes
          else (.error .raised, s)

def lookupVariant (name : String) : List Variant → Except Exit (Option Variant)
  | [] => .ok none
  | v :: variants =>
      match v.variant with
      | none => .error .raised
      | some variant =>
          if py.lower variant = py.lower name then .ok (some v) else lookupVariant name variants

-- The answer is what was typed, stripped; there is none at the end of the input.
def interactivePick (answer : Option String) (variants : List Variant) :
    Except Exit (Option Variant) :=
  if variants.any (·.variant.isNone) then .error .raised
  else
    match answer with
    | none => .ok none
    | some raw =>
        if raw = "" then .ok none
        else if py.isdigit raw then
          match py.int raw with
          | none => .error .raised
          | some n =>
              let idx := n - 1
              if 0 ≤ idx ∧ idx < variants.length then .ok variants[idx.toNat]? else .ok none
        else lookupVariant py raw variants

-- A run of milo download: its flags, what is typed, and what the servers give.
structure Download where
  board : Option String
  verify : Bool
  answer : Option String
  fetched : Fetched
  server : String → Response

def Download.pick (d : Download) (variants : List Variant) : Except Exit (Option Variant) :=
  match d.board with
  | none => interactivePick py d.answer variants
  | some board =>
      if board = "" then interactivePick py d.answer variants else lookupVariant py board variants

def Download.verified (d : Download) (variant : Variant) (saved : Option Bytes) : Exit :=
  if d.verify then
    match variant.declared, saved with
    | none, _ => .code 0
    | some _, none => .raised
    | some digest, some bytes => if py.sha256 bytes = digest then .code 0 else .code 1
  else .code 0

def Download.save (d : Download) (s : Bench ι) (variant : Variant) : Exit × Bench ι :=
  match variant.filename, variant.url with
  | some filename, some url =>
      match downloadFirmware files s (files.path filename) (d.server url) with
      | (.error .downloadError, s) => (.code 1, s)
      | (.error .raised, s) => (.raised, s)
      | (.ok (), s) => (d.verified py variant (s.disk (files.place filename)).content, s)
  | _, _ => (.raised, s)

def Download.run (d : Download) (s : Bench ι) : Exit × Bench ι :=
  match d.fetched with
  | .downloadError => (.code 1, s)
  | .raised => (.raised, s)
  | .manifest [] => (.code 1, s)
  | .manifest (v :: variants) =>
      match d.pick py (v :: variants) with
      | .error exit => (exit, s)
      | .ok none => (.code 1, s)
      | .ok (some variant) => d.save py files s variant

-- What the backend of a board finds at its port, and how flashing it ends.
inductive ProbeResult where
  | ok (variant : Option String)
  | failed
  | raised

inductive FlashResult where
  | ok
  | failed
  | raised
deriving DecidableEq

structure Backend where
  probe : ProbeResult
  flash : FlashResult

-- A board that milo init could flash: the variants of its family, what is answered for
-- it, its backend if one is registered, and what the server gives when its turn comes.
structure Target where
  variants : List String
  answer : Option String
  backend : Option Backend
  server : String → Response

structure InitCmd where
  yes : Bool
  dryRun : Bool
  fetched : Fetched
  targets : List Target

-- The loop of milo init over its targets; with an exit it is over.
structure Loop (ι : Type) where
  bench : Bench ι
  manifest : Option (List Variant)
  exit : Option Exit

def confirm (answer : Option String) : Bool :=
  match answer with
  | none => false
  | some ans => py.lower ans ∈ ["", "y", "yes"]

def findVariantInManifest (variants : List Variant) (variant : Option String) : Option Variant :=
  match variant with
  | none => none
  | some variant => variants.find? (fun v => py.lower (v.variant.getD "") = py.lower variant)

-- The probed variant, or else the first of the family.
def Target.variant (t : Target) (probed : Option String) : Option String :=
  match probed with
  | none => t.variants.head?
  | some variant => if variant = "" then t.variants.head? else some variant

def Loop.fetch (s : Loop ι) (fetched : Fetched) : Loop ι :=
  match s.manifest, fetched with
  | some _, _ => s
  | none, .manifest variants => { s with manifest := some variants }
  | none, .downloadError => { s with exit := some (.code 1) }
  | none, .raised => { s with exit := some .raised }

-- A target up to its entry in the manifest; with none it is skipped.
def InitCmd.select (i : InitCmd) (s : Loop ι) (t : Target) : Loop ι × Option (Backend × Variant) :=
  if !i.yes && !confirm py t.answer then (s, none)
  else
    match t.backend with
    | none => (s, none)
    | some backend =>
        match backend.probe with
        | .failed => (s, none)
        | .raised => ({ s with exit := some .raised }, none)
        | .ok probed =>
            let s := s.fetch i.fetched
            match s.manifest with
            | none => (s, none)
            | some variants =>
                (s, (findVariantInManifest py variants (t.variant probed)).map (backend, ·))

-- The file of an entry, which counts as cached when anything is there.
def Target.obtain (t : Target) (s : Bench ι) (entry : Variant) (firmwarePath : Path) :
    Except DownloadFailure Unit × Bench ι :=
  let download : Except DownloadFailure Unit × Bench ι :=
    match entry.url with
    | none => (.error .raised, s)
    | some url => downloadFirmware files s firmwarePath (t.server url)
  match s.disk (files.locate firmwarePath) with
  | .file _ => (.ok (), s)
  | .directory => (.ok (), s)
  | .refused => (.error .raised, s)
  | .absent => download
  | .unreachable => download

def Loop.flash (s : Loop ι) (t : Target) (backend : Backend) (entry : Variant) : Loop ι :=
  match entry.filename with
  | none => { s with exit := some .raised }
  | some filename =>
      match t.obtain files s.bench entry (files.path filename) with
      | (.error .downloadError, bench) => { s with bench := bench }
      | (.error .raised, bench) => { s with bench := bench, exit := some .raised }
      | (.ok (), bench) =>
          let place := files.place filename
          { s with
            bench := bench.does (.flashed entry place (bench.disk place).content)
            exit := if backend.flash = .raised then some .raised else s.exit }

def InitCmd.target (i : InitCmd) (s : Loop ι) (t : Target) : Loop ι :=
  match s.exit with
  | some _ => s
  | none =>
      match i.select py s t with
      | (s, none) => s
      | (s, some (backend, entry)) => s.flash files t backend entry

def Loop.start (bench : Bench ι) : Loop ι where
  bench := bench
  manifest := none
  exit := none

def InitCmd.toFlash (i : InitCmd) : List Target := if i.dryRun then [] else i.targets

def InitCmd.run (i : InitCmd) (s : Bench ι) : Exit × Bench ι :=
  let s := i.toFlash.foldl (i.target py files) (Loop.start s)
  (s.exit.getD (.code 0), s.bench)

inductive Command where
  | download (d : Download)
  | init (i : InitCmd)

def Bench.perform (s : Bench ι) : Command → Bench ι
  | .download d => (d.run py files s).2
  | .init i => (i.run py files s).2

def Bench.run (s : Bench ι) (commands : List Command) : Bench ι :=
  commands.foldl (Bench.perform py files) s

end Commands

end Milo.Host.Flash

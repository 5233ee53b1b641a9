import Mathlib.Data.List.AList
import Mathlib.Data.List.Sort
import Mathlib.Order.Basic
import Sentinel.Library.Insertion
import Sentinel.Library.Numerals

/-!
# Scripts — Backup

The backup script (`scripts/backup-postgres.sh`), as a computation over the backup directory
that may stop with an error.

What the external commands do is the environment of a run (`Env`): whether they succeed, and what
they print. A name has a character for each of its bytes, and the directory's path is left off
the names of its entries. No other process changes the directory meanwhile.

* `parseArchive`: the regular expression of a project's archives.
* `order`: the loop that sorts the prior archives, over two parallel arrays.
* `backupMain`, and `run`, which runs the `EXIT` trap behind it.
-/

namespace Sentinel.Scripts

open Insertion Numerals

/-- A string of the shell, a character for each byte. -/
abbrev Text := List Char

abbrev Name := Text

/-! ### Times -/

/-- A time in UTC, of the years that are written with four digits. -/
structure UtcTime where
  year : Fin 10000
  month : Fin 13
  day : Fin 32
  hour : Fin 24
  minute : Fin 60
  second : Fin 61
  nanosecond : Fin 1000000000
deriving DecidableEq, Repr

namespace UtcTime

def fields (t : UtcTime) : List Nat :=
  [t.year, t.month, t.day, t.hour, t.minute, t.second, t.nanosecond]

theorem fields_injective : Function.Injective fields := by
  rintro ⟨y, mo, d, h, mi, s, ns⟩ ⟨y', mo', d', h', mi', s', ns'⟩ heq
  simpa [fields, Fin.ext_iff] using heq

/-- The order of times: year first, nanosecond last. -/
instance : LinearOrder UtcTime := LinearOrder.lift' fields fields_injective

/-- What `stat -c %y` prints in UTC. -/
def text (t : UtcTime) : Text :=
  digits 4 t.year ++ '-' :: (digits 2 t.month ++ '-' :: (digits 2 t.day ++ ' ' ::
    (digits 2 t.hour ++ ':' :: (digits 2 t.minute ++ ':' :: (digits 2 t.second ++ '.' ::
      (digits 9 t.nanosecond ++ " +0000".toList))))))

end UtcTime

/-! ### The directory -/

/-- What a symbolic link leads to. -/
inductive Target where
  | file
  | other
  | missing
deriving DecidableEq, Repr

/-- An entry: a regular file, a symbolic link, or anything else, as a directory. -/
inductive Node where
  | file (mtime : UtcTime) (content : List UInt8)
  | symlink (target : Target)
  | other
deriving DecidableEq, Repr

/-- The entries by name. -/
abbrev Directory := AList fun _ : Name => Node

/-- `-f`, which follows links. -/
def testFile (d : Directory) (name : Name) : Bool :=
  match d.lookup name with
  | some (.file _ _) | some (.symlink .file) => true
  | _ => false

/-- `-L`. -/
def testLink (d : Directory) (name : Name) : Bool :=
  match d.lookup name with
  | some (.symlink _) => true
  | _ => false

/-- `-e`, which follows links. -/
def testExists (d : Directory) (name : Name) : Bool :=
  match d.lookup name with
  | none | some (.symlink .missing) => false
  | _ => true

/-- What is at `BACKUP_DIR`. -/
inductive Place where
  | missing
  | symlink
  | notDirectory
  | directory (d : Directory)

/-- The entries there. -/
def Place.entries : Place → Directory
  | .directory d => d
  | _ => ∅

/-! ### Errors -/

/-- What the script stops with. -/
inductive BackupError where
  | project
  | bounded (name : String) (minimum maximum : Nat)
  | symlinkPath
  | createDirectory
  | realDirectory
  | privateDirectory
  | discovery
  | containerCount (owner : Text)
  | containerId
  | inspection
  | ownership
  | timestamp
  | nonce
  | unsafeName
  | archiveExists
  | createPartial
  | securePartial
  | dump (status : Nat)
  | emptyArchive
  | integrity
  | publication
  | ordering (archive : Name)
  | rotation (archive : Name)
  | disappeared
deriving DecidableEq, Repr

/-- What `backup_error` prints behind the name of the script, for a path of the directory. -/
def BackupError.message (directory : Text) : BackupError → String
  | project => "BACKUP_PROJECT must be a safe Docker project identifier"
  | bounded name minimum maximum =>
      name ++ " must be an integer from " ++ toString minimum ++ " through " ++ toString maximum
  | symlinkPath => "BACKUP_DIR must be a non-symlink directory path"
  | createDirectory => "could not create BACKUP_DIR"
  | realDirectory => "BACKUP_DIR must be a real directory, not a symlink"
  | privateDirectory => "could not make BACKUP_DIR private"
  | discovery => "Docker container discovery failed or timed out"
  | containerCount owner =>
      "expected exactly one running db container for project " ++ String.ofList owner
  | containerId => "Docker returned an invalid container identifier"
  | inspection => "Docker ownership inspection failed or timed out"
  | ownership => "selected container is not the running db service owned by BACKUP_PROJECT"
  | timestamp => "could not create archive timestamp"
  | nonce => "could not create archive nonce"
  | unsafeName => "could not create a safe unique archive name"
  | archiveExists => "archive name already exists; refusing to overwrite"
  | createPartial => "could not create a private partial archive"
  | securePartial => "could not secure partial archive"
  | dump status =>
      "pg_dump/compression failed or timed out (status " ++ toString status ++
        "); existing archives were retained"
  | emptyArchive => "dump produced an empty archive; existing archives were retained"
  | integrity =>
      "compressed archive integrity validation failed; existing archives were retained"
  | publication => "atomic archive publication failed; existing archives were retained"
  | ordering archive =>
      "could not establish archive ordering; published archive " ++ path archive ++
        " was preserved and rotation was skipped"
  | rotation archive =>
      "rotation failed after publishing " ++ path archive ++ "; archive cleanup was incomplete"
  | disappeared => "published archive disappeared during rotation"
where
  path (name : Name) : String := String.ofList (directory ++ '/' :: name)

/-- The status `backup_main` returns with. -/
def BackupError.status : BackupError → Nat
  | project | bounded _ _ _ | symlinkPath | realDirectory => 2
  | _ => 1

/-! ### Names and numbers -/

/-- `[a-f0-9]`. -/
def isHex (c : Char) : Bool := c.isDigit || ('a' ≤ c && c ≤ 'f')

/-- `[A-Za-z0-9_-]`. -/
def isProjectChar (c : Char) : Bool := c.isAlphanum || c = '_' || c = '-'

/-- `^[A-Za-z0-9][A-Za-z0-9_-]{0,62}$`. -/
def isProject : Text → Bool
  | [] => false
  | c :: cs => c.isAlphanum && cs.length ≤ 62 && cs.all isProjectChar

/-- `backup_positive_bounded`: at most five digits, read in base ten whatever zeros they start
with. -/
def backupPositiveBounded (value : Text) (minimum maximum : Nat) : Option Nat :=
  let n := Nat.ofDigitChars 10 value 0
  if value ≠ [] ∧ value.length ≤ 5 ∧ value.all Char.isDigit ∧ minimum ≤ n ∧ n ≤ maximum then some n
  else none

/-- `^[[:alnum:]]{12,64}$`. -/
def isContainerId (s : Text) : Bool := 12 ≤ s.length && s.length ≤ 64 && s.all Char.isAlphanum

/-- A literal at the start of a text, and the rest. -/
def literal (t s : Text) : Option Text :=
  if s.take t.length = t then some (s.drop t.length) else none

/-- `n` characters of a class at the start of a text, and the rest. -/
def span (p : Char → Bool) (n : Nat) (s : Text) : Option (Text × Text) :=
  if (s.take n).length = n ∧ (s.take n).all p then some (s.take n, s.drop n) else none

/-- `(\.([0-9]{9}))?`, with the fraction that is its default. -/
def fraction : Text → Option (Text × Text)
  | '.' :: s => span Char.isDigit 9 s
  | s => some ("000000000".toList, s)

/-- `([0-9]{8}T[0-9]{6})(\.([0-9]{9}))?Z`, as the time with its fraction, and the rest. -/
def stamp (s : Text) : Option (Text × Text) := do
  let (date, s) ← span Char.isDigit 8 s
  let s ← literal ['T'] s
  let (clock, s) ← span Char.isDigit 6 s
  let (nanoseconds, s) ← fraction s
  let s ← literal ['Z'] s
  return (date ++ 'T' :: (clock ++ '.' :: (nanoseconds ++ ['Z'])), s)

def backupPrefix (project : Text) : Text := "backup-".toList ++ (project ++ ['-'])

def sqlGz : Text := ".sql.gz".toList

/-- The regular expression of the archives of a project: the time and the nonce in a name. -/
def parseArchive (project : Text) (base : Name) : Option (Text × Text) := do
  let s ← literal (backupPrefix project) base
  let (filename_time, s) ← stamp s
  let s ← literal ['-'] s
  let (file_nonce, s) ← span isHex 12 s
  if s = sqlGz then some (filename_time, file_nonce) else none

/-- The pattern of the names the loop goes over. -/
def globMatches (project : Text) (name : Name) : Bool :=
  match literal (backupPrefix project) name with
  | some rest => sqlGz.isSuffixOf rest
  | none => false

/-- The names that match, sorted. -/
def glob (project : Text) (d : Directory) : List Name :=
  (d.keys.filter (globMatches project)).insertionSort (· ≤ ·)

/-- `^[0-9]{8}T[0-9]{6}\.[0-9]{9}Z$`. -/
def isStamp (s : Text) : Bool := stamp s = some (s, [])

/-- `^[a-f0-9]{12}$`. -/
def isNonce (s : Text) : Bool := s.length = 12 && s.all isHex

def archiveName (project time nonce : Text) : Name :=
  backupPrefix project ++ (time ++ '-' :: (nonce ++ sqlGz))

def partialName (project time nonce random : Text) : Name :=
  '.' :: (backupPrefix project ++ (time ++ '-' :: (nonce ++ '.' :: (random ++ ".partial".toList))))

/-! ### The run -/

/-- The variables the script reads; one that is not set or empty has its default. -/
structure Config where
  BACKUP_PROJECT : Option Text
  BACKUP_KEEP_COUNT : Option Text
  BACKUP_TIMEOUT_SECONDS : Option Text

/-- `${variable:-default}`. -/
def orDefault (value : Option Text) (default : String) : Text :=
  match value with
  | none | some [] => default.toList
  | some text => text

/-- What `rm` comes to. It may fail behind the removal. -/
inductive Outcome where
  | done
  | failed
  | failedLate
deriving DecidableEq, Repr

/-- What the external commands of a run do. -/
structure Env where
  mkdir : Bool
  chmodDirectory : Bool
  /-- The identifiers that `docker ps` lists, unless it fails or times out. -/
  dockerPs : Option (List Text)
  /-- Project, service and state that `docker inspect` prints. -/
  dockerInspect : Option (Text × Text × Text)
  date : Option Text
  nonce : Option Text
  /-- The characters `mktemp` puts for the `X`s. -/
  mktemp : Option Text
  chmodPartial : Bool
  /-- The status of the pipeline, and what it wrote until then. -/
  dumpStatus : Nat
  dump : List UInt8
  gzipTest : Bool
  /-- The modification time of the archive. -/
  now : UtcTime
  mv : Bool
  /-- Whether `stat` prints the modification time of an entry. -/
  stat : Name → Bool
  rm : Name → Outcome

structure State where
  place : Place
  /-- `backup_partial`, for the `EXIT` trap. -/
  backupPartial : Option Name
  /-- The archive, once it is published. -/
  published : Option Name

abbrev Script := EStateM BackupError State

def require (condition : Bool) (e : BackupError) : Script Unit :=
  if condition then pure () else throw e

def orFail {α : Type} (value : Option α) (e : BackupError) : Script α :=
  match value with
  | some a => pure a
  | none => throw e

def entries : Script Directory := return (← get).place.entries

def setEntries (d : Directory) : Script Unit := modify fun s => { s with place := .directory d }

/-- The checks on the variables: the project and the number of archives to keep. -/
def checkConfig (config : Config) : Script (Text × Nat) := do
  let project := orDefault config.BACKUP_PROJECT "sentinel-prod"
  require (isProject project) .project
  let keep ← orFail (backupPositiveBounded (orDefault config.BACKUP_KEEP_COUNT "7") 1 1000)
    (.bounded "BACKUP_KEEP_COUNT" 1 1000)
  let _ ← orFail (backupPositiveBounded (orDefault config.BACKUP_TIMEOUT_SECONDS "120") 1 3600)
    (.bounded "BACKUP_TIMEOUT_SECONDS" 1 3600)
  return (project, keep)

/-- Makes sure of a private directory. -/
def openDirectory (env : Env) : Script Unit := do
  match (← get).place with
  | .symlink => throw .symlinkPath
  | .notDirectory => throw .realDirectory
  | .missing =>
      require env.mkdir .createDirectory
      setEntries ∅
  | .directory _ => pure ()
  require env.chmodDirectory .privateDirectory

/-- Makes sure of exactly one running database of the project. -/
def findContainer (env : Env) (project : Text) : Script Text := do
  let ids ← orFail env.dockerPs .discovery
  match ids with
  | [id] =>
      require (isContainerId id) .containerId
      let labels ← orFail env.dockerInspect .inspection
      require (labels = (project, "db".toList, "running".toList)) .ownership
      return id
  | _ => throw (.containerCount project)

/-- `rm` of an entry: whether it reports success. -/
def rm (env : Env) (name : Name) (d : Directory) : Bool × Directory :=
  match env.rm name with
  | .done => (true, d.erase name)
  | .failed => (false, d)
  | .failedLate => (false, d.erase name)

/-- `mv -n`: nothing is moved onto another entry. -/
def mvNoClobber (source target : Name) (d : Directory) : Directory :=
  match d.lookup source with
  | some node => if (d.lookup target).isSome then d else (d.erase source).insert target node
  | none => d

/-- Dumps the database into a partial archive and publishes it. -/
def publish (env : Env) (project : Text) : Script Name := do
  let time ← orFail env.date .timestamp
  let nonce ← orFail env.nonce .nonce
  require (isStamp time && isNonce nonce) .unsafeName
  let archive := archiveName project time nonce
  let d ← entries
  require (!testExists d archive && !testLink d archive) .archiveExists
  let random ← orFail env.mktemp .createPartial
  let unfinished := partialName project time nonce random
  -- `mktemp` makes a new file or fails
  require (d.lookup unfinished).isNone .createPartial
  setEntries (d.insert unfinished (.file env.now []))
  modify fun s => { s with backupPartial := some unfinished }
  require env.chmodPartial .securePartial
  setEntries ((← entries).insert unfinished (.file env.now env.dump))
  require (env.dumpStatus = 0) (.dump env.dumpStatus)
  require (env.dump ≠ []) .emptyArchive
  require env.gzipTest .integrity
  require env.mv .publication
  setEntries (mvNoClobber unfinished archive (← entries))
  let d ← entries
  require (!testExists d unfinished && testFile d archive && !testLink d archive) .publication
  modify fun s => { s with backupPartial := none, published := some archive }
  return archive

/-- The key a prior archive is ordered by. -/
def archiveKey (filename_time file_mtime file_nonce : Text) : Text :=
  filename_time ++ '|' :: (file_mtime ++ '|' :: file_nonce)

/-- What `stat` prints for an entry. -/
def statMtime (env : Env) (d : Directory) (name : Name) : Option Text :=
  match d.lookup name with
  | some (.file mtime _) => if env.stat name then some mtime.text else none
  | _ => none

/-- The loop over the names: `archives` and their keys, which `arrays` has so far. -/
def order (env : Env) (project : Text) (archive : Name) (d : Directory) :
    List Name → List Name × List Text → Script (List Name × List Text)
  | [], arrays => return arrays
  | id :: ids, arrays =>
      if testFile d id = true ∧ testLink d id = false then
        match parseArchive project id with
        | none => order env project archive d ids arrays
        | some (filename_time, file_nonce) =>
            if id = archive then order env project archive d ids arrays
            else do
              let file_mtime ← orFail (statMtime env d id) (.ordering archive)
              order env project archive d ids
                (insert id (archiveKey filename_time file_mtime file_nonce) arrays)
      else order env project archive d ids arrays

/-- Removes archives one by one, up to a failure. -/
def removeAll (env : Env) (archive : Name) : List Name → Script Unit
  | [] => pure ()
  | name :: names => do
      let (success, d) := rm env name (← entries)
      setEntries d
      require success (.rotation archive)
      removeAll env archive names

/-- What the script prints at the end. -/
structure Report where
  archive : Name
  kept : Nat
deriving DecidableEq, Repr

/-- Keeps the published archive and the latest prior ones. -/
def rotate (env : Env) (project : Text) (keep : Nat) (archive : Name) : Script Report := do
  let d ← entries
  let (prior, _) ← order env project archive d (glob project d) ([], [])
  let archives := archive :: prior
  removeAll env archive (archives.drop keep)
  let d ← entries
  require (testFile d archive && !testLink d archive) .disappeared
  return ⟨archive, min archives.length keep⟩

def backupMain (env : Env) (config : Config) : Script Report := do
  let (project, keep) ← checkConfig config
  openDirectory env
  let _ ← findContainer env project
  let archive ← publish env project
  rotate env project keep archive

/-- The `EXIT` trap, and whether it reports that it could not remove the partial archive. -/
def exitTrap (env : Env) (s : State) : State × Bool :=
  match s.backupPartial with
  | none => (s, false)
  | some name =>
      let d := s.place.entries
      if testFile d name = true ∧ testLink d name = false then
        let (success, d') := rm env name d
        ({ s with place := .directory d' }, !success)
      else (s, false)

/-- A run of the script from start to end. -/
structure Run where
  result : Except BackupError Report
  place : Place
  published : Option Name
  trapReports : Bool

def run (env : Env) (config : Config) (place : Place) : Run :=
  let (result, s) := match backupMain env config ⟨place, none, none⟩ with
    | .ok report s => (Except.ok report, s)
    | .error e s => (Except.error e, s)
  let (s', trapReports) := exitTrap env s
  ⟨result, s'.place, s'.published, trapReports⟩

end Sentinel.Scripts

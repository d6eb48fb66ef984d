/-
Restoring a SQLite snapshot over a destination.
-/
import Centinal26.Lib.Ends
import Centinal26.Py.Json

namespace Centinal26.Recovery

open Py Steps

abbrev Bytes := List UInt8

-- == paths

/-- A name in a directory. -/
structure Path where
  parent : PyStr
  name : PyStr
deriving DecidableEq

def Path.withName (p : Path) (name : PyStr) : Path := { p with name := name }

def sidecars (path : Path) : List Path :=
  [path.withName (path.name ++ py "-wal"), path.withName (path.name ++ py "-shm")]

/-- What all preserved copies of a destination are called. -/
def preservedAs (destination : Path) (mark : PyStr) : Path :=
  destination.withName (destination.name ++ py ".pre_restore." ++ mark)

/-- Where the bytes with this hash are kept. -/
def preservedPath (destination : Path) (observed : PyStr) : Path :=
  preservedAs destination (observed.take 16)

def temporaryPath (destination : Path) : Path :=
  destination.withName (py "." ++ destination.name ++ py ".restore.tmp")

section Names

variable (d : Path) (mark : PyStr)

theorem ne_of_length {p q : Path} (h : p.name.length ≠ q.name.length) : p ≠ q := by
  intro heq
  apply h
  rw [heq]

theorem length_temporary : (temporaryPath d).name.length = d.name.length + 13 := by
  show (py "." ++ d.name ++ py ".restore.tmp").length = _
  simp [py]

theorem length_preserved : (preservedAs d mark).name.length = d.name.length + 13 + mark.length := by
  show (d.name ++ py ".pre_restore." ++ mark).length = _
  simp [py]
  omega

theorem length_sidecar {p : Path} (h : p ∈ sidecars d) : p.name.length = d.name.length + 4 := by
  rcases List.mem_cons.mp h with rfl | h
  · simp [Path.withName, py]
  · rw [List.mem_singleton.mp h]
    simp [Path.withName, py]

theorem temporary_ne_destination : temporaryPath d ≠ d := by
  apply ne_of_length
  rw [length_temporary]
  omega

theorem preserved_ne_destination : preservedAs d mark ≠ d := by
  apply ne_of_length
  rw [length_preserved]
  omega

theorem preserved_ne_temporary : preservedAs d mark ≠ temporaryPath d := by
  cases mark with
  | cons c mark =>
    apply ne_of_length
    rw [length_preserved, length_temporary, List.length_cons]
    omega
  | nil =>
    intro heq
    have hname : d.name ++ py ".pre_restore." ++ [] = py "." ++ d.name ++ py ".restore.tmp" :=
      congrArg Path.name heq
    have hlast := congrArg List.getLast? hname
    rw [List.append_nil, List.getLast?_append, List.getLast?_append] at hlast
    have hends : (py ".pre_restore.").getLast? = some 46
        ∧ (py ".restore.tmp").getLast? = some 112 := by decide
    rw [hends.1, hends.2] at hlast
    cases hlast

theorem sidecar_ne_temporary {p : Path} (h : p ∈ sidecars d) : p ≠ temporaryPath d := by
  apply ne_of_length
  rw [length_sidecar d h, length_temporary]
  omega

end Names

-- == disk

/-- What a path leads to. -/
inductive Node : Type
  | file (bytes : Bytes)
  | directory
  /-- a symbolic link, and whether it leads anywhere -/
  | symlink (resolves : Bool)
deriving DecidableEq

/-- The files there are. -/
structure Disk where
  node : Path → Option Node

namespace Disk

variable (d : Disk) (p q : Path)

def isSymlink : Bool :=
  match d.node p with
  | some (.symlink _) => true
  | _ => false

def pathExists : Bool :=
  match d.node p with
  | some (.symlink resolves) => resolves
  | some _ => true
  | none => false

/-- A file is written, over one that is there. -/
def put (bytes : Bytes) : Disk := ⟨Function.update d.node p (some (.file bytes))⟩

def drop : Disk := ⟨Function.update d.node p none⟩

@[simp] theorem put_self (bytes : Bytes) : (d.put p bytes).node p = some (.file bytes) :=
  Function.update_self ..

@[simp] theorem drop_self : (d.drop p).node p = none := Function.update_self ..

theorem put_other {q p : Path} (bytes : Bytes) (h : q ≠ p) :
    (d.put p bytes).node q = d.node q := Function.update_of_ne h ..

theorem drop_other {q p : Path} (h : q ≠ p) : (d.drop p).node q = d.node q :=
  Function.update_of_ne h ..

end Disk

/-- Two disks differ in these paths at most. -/
def SameBut (ps : List Path) (d d' : Disk) : Prop := ∀ p, p ∉ ps → d'.node p = d.node p

namespace SameBut

theorem refl (ps : List Path) (d : Disk) : SameBut ps d d := fun _ _ => rfl

theorem trans {ps : List Path} {d d' d'' : Disk} (h : SameBut ps d d')
    (h' : SameBut ps d' d'') : SameBut ps d d'' :=
  fun p hp => (h' p hp).trans (h p hp)

theorem mono {ps qs : List Path} {d d' : Disk} (h : SameBut ps d d') (hsub : ps ⊆ qs) :
    SameBut qs d d' := fun p hp => h p fun hmem => hp (hsub hmem)

theorem put (d : Disk) (p : Path) (bytes : Bytes) : SameBut [p] d (d.put p bytes) :=
  fun _ hq => d.put_other bytes (fun h => hq (List.mem_singleton.mpr h))

theorem drop (d : Disk) (p : Path) : SameBut [p] d (d.drop p) :=
  fun _ hq => d.drop_other (fun h => hq (List.mem_singleton.mpr h))

end SameBut

end Centinal26.Recovery

namespace Centinal26.Recovery

open Py Steps

-- == host

/-- The operations of a restore, in the order it performs them. -/
inductive Op : Type
  | statSnapshot
  | verifySnapshot
  | statDestination
  | mkdir
  | statSidecars
  | statCurrent
  | hashCurrent
  | statPreserved
  | openCopy
  | writeCopy
  | chmodCopy
  | unlinkStale
  | backup
  | verifyTemporary
  | chmodTemporary
  | replace
  | unlinkTemporary
  | verifyDestination
deriving DecidableEq

/-- What an operation fails with: an `OSError` or a `sqlite3.DatabaseError`. -/
inductive Failure : Type
  | os
  | database
deriving DecidableEq

/-- What a restore raises. -/
inductive RecoveryError : Type
  | failed (f : Failure)
  /-- `SQLiteRecoveryError` -/
  | recovery (message : String)
deriving DecidableEq

/-- What SQLite and SHA-256 say of the bytes of a file. -/
structure Sqlite where
  /-- whether the integrity and foreign key checks pass, if it is a database -/
  verify : Bytes → Option Bool
  sha256 : Bytes → PyStr

/-- What happens to one call. -/
structure Host where
  failure : Op → Option Failure
  /-- the database the backup writes -/
  copied : Bytes
  /-- how much of the copy a failing write leaves -/
  partCopied : Nat
  /-- the file a failing backup leaves -/
  partBackup : Option Bytes

def Host.Fair (H : Host) : Prop := ∀ op, H.failure op = none

/-- The arguments of a restore. -/
structure Call where
  snapshot : Path
  destination : Path
  expected : Option PyStr

variable (E : Sqlite) (H : Host) (c : Call)

/-- The operation, as far as it can fail. -/
def attempt (op : Op) : Except RecoveryError Unit :=
  match H.failure op with
  | none => .ok ()
  | some f => .error (.failed f)

-- == looks

def regularFile (d : Disk) (path : Path) (label : String) : Except RecoveryError Bytes :=
  match d.node path with
  | some (.file bytes) => .ok bytes
  | _ => .error (.recovery (label ++ " must be a regular non-symlink file"))

def databaseError (message : String) : RecoveryError → RecoveryError
  | .failed .database => .recovery message
  | e => e

/-- What `verify_sqlite_database` reports. -/
structure Verification where
  passes : Bool
  sha256 : PyStr
deriving DecidableEq

def verifySqliteDatabase (op : Op) (d : Disk) (path : Path) :
    Except RecoveryError Verification := do
  let bytes ← regularFile d path "SQLite database"
  let passes ← Except.mapError (databaseError "SQLite verification failed") do
    attempt H op
    match E.verify bytes with
    | some passes => .ok passes
    | none => .error (.failed .database)
  return ⟨passes, E.sha256 bytes⟩

def preflightSnapshot (d : Disk) : Except RecoveryError Verification := do
  attempt H .statSnapshot
  let _ ← regularFile d c.snapshot "SQLite snapshot"
  let verification ← verifySqliteDatabase E H .verifySnapshot d c.snapshot
  if verification.passes then return verification
  throw (.recovery "snapshot is not eligible for restore")

/-- The checks of the destination's path and sidecars. -/
def preflightDestination (d : Disk) : Except RecoveryError Unit := do
  attempt H .statDestination
  if d.isSymlink c.destination then
    throw (.recovery "restore destination may not be a symlink")
  attempt H .mkdir
  attempt H .statSidecars
  if (sidecars c.destination).any d.pathExists then
    throw (.recovery "restore blocked while WAL/SHM sidecars exist")

/-- The checks of the current destination, and where its bytes will be kept. -/
def preflightCurrent (d : Disk) : Except RecoveryError (Option (Path × Bytes)) := do
  attempt H .statCurrent
  if d.pathExists c.destination then
    let current ← regularFile d c.destination "current SQLite destination"
    match c.expected with
    | none => throw (.recovery "existing destination requires expected_current_sha256")
    | some expected =>
      attempt H .hashCurrent
      let observed := E.sha256 current
      if observed ≠ expected then
        throw (.recovery "current SQLite destination hash changed")
      attempt H .statPreserved
      let preserved := preservedPath c.destination observed
      if d.pathExists preserved || d.isSymlink preserved then
        throw (.recovery "pre-restore preservation target already exists")
      return some (preserved, current)
  else return none

/-- What a restore goes on with once it has looked. -/
structure Admitted where
  snapshot : Verification
  previous : Option (Path × Bytes)

/-- All that is checked before anything is changed. -/
def preflight (d : Disk) : Except RecoveryError Admitted := do
  let snapshot ← preflightSnapshot E H c d
  preflightDestination H c d
  return ⟨snapshot, ← preflightCurrent E H c d⟩

-- == changes

def look {α : Type} (f : Disk → Except RecoveryError α) : Block RecoveryError Disk α :=
  fun d => (f d, d)

def write (f : Disk → Disk) : Block RecoveryError Disk Unit := fun d => (.ok (), f d)

/-- `try … finally`: an exception of the cleanup takes over. -/
def finallyDo {α : Type} (m : Block RecoveryError Disk α)
    (cleanup : Block RecoveryError Disk Unit) : Block RecoveryError Disk α := fun d =>
  match m d with
  | (r, d') => match cleanup d' with
    | (.ok (), d'') => (r, d'')
    | (.error e, d'') => (.error e, d'')

def remove (path : Path) : Block RecoveryError Disk Unit := fun d =>
  match d.node path with
  | some .directory => (.error (.failed .os), d)
  | _ => (.ok (), d.drop path)

def move (source target : Path) : Block RecoveryError Disk Unit := fun d =>
  match d.node source with
  | some (.file bytes) => (.ok (), (d.drop source).put target bytes)
  | _ => (.error (.failed .os), d)

/-- `Path.unlink(missing_ok=True)`. -/
def unlink (op : Op) (path : Path) : Block RecoveryError Disk Unit := do
  look fun _ => attempt H op
  remove path

/-- `shutil.copy2`, to a place where nothing is. -/
def copy2 (target : Path) (bytes : Bytes) : Block RecoveryError Disk Unit := fun d =>
  match H.failure .openCopy, H.failure .writeCopy with
  | some f, _ => (.error (.failed f), d)
  | none, some f => (.error (.failed f), d.put target (bytes.take H.partCopied))
  | none, none => (.ok (), d.put target bytes)

/-- The copy of the current destination, where there is one. -/
def preserve : Option (Path × Bytes) → Block RecoveryError Disk Unit
  | none => pure ()
  | some (preserved, current) => do
    copy2 H preserved current
    look fun _ => attempt H .chmodCopy

/-- `source_db.backup(target_db)`; the source is opened first. -/
def backup (temporary : Path) : Block RecoveryError Disk Unit := fun d =>
  match d.node c.snapshot, H.failure .backup, H.partBackup with
  | some (.file _), none, _ => (.ok (), d.put temporary H.copied)
  | some (.file _), some f, some bytes => (.error (.failed f), d.put temporary bytes)
  | some (.file _), some f, none => (.error (.failed f), d)
  | _, _, _ => (.error (.failed .database), d)

/-- The body of the `try`. -/
def rebuild (temporary : Path) : Block RecoveryError Disk Unit := do
  backup H c temporary
  let verification ← look fun d => verifySqliteDatabase E H .verifyTemporary d temporary
  if verification.passes then
    look fun _ => attempt H .chmodTemporary
    look fun _ => attempt H .replace
    move temporary c.destination
  else throw (.recovery "restored temporary database failed verification")

/-- The temporary file, from its removal to its removal. -/
def build : Block RecoveryError Disk Unit := do
  let temporary := temporaryPath c.destination
  unlink H .unlinkStale temporary
  finallyDo
    (tryCatch (rebuild E H c temporary) fun e => throw (databaseError "SQLite restore failed" e))
    (unlink H .unlinkTemporary temporary)

structure Restored where
  destinationPath : Path
  restoredSha256 : PyStr
  preservedPreviousPath : Option Path
deriving DecidableEq

def conclude (admitted : Admitted) : Block RecoveryError Disk Restored := do
  let restored ← look fun d => verifySqliteDatabase E H .verifyDestination d c.destination
  if restored.sha256 ≠ admitted.snapshot.sha256 then
    throw (.recovery "restored database hash does not match verified snapshot")
  else return ⟨c.destination, restored.sha256, admitted.previous.map Prod.fst⟩

def restoreSqliteSnapshot : Block RecoveryError Disk Restored := do
  let admitted ← look (preflight E H c)
  preserve H admitted.previous
  build E H c
  conclude E H c admitted

end Centinal26.Recovery

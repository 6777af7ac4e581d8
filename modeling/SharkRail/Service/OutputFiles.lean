import SharkRail.Service.Output

/-!
# The files of the output store

`FileOutputStore`, call by call. A method is a sequence of system calls on the tree of the store; each call has a name of its own in the
method that makes it, so that which calls fail is a predicate on the names, and a part of a method takes the predicate that its own calls
have. A call that fails raises and changes nothing; `os.path.lexists` takes a failure for absence. `exists`, `is_file`, `is_dir` and
`is_symlink` of a path answer `False` where the path does not lead anywhere, which the tree says: that one of them fails means that it has
met another error, which they raise. (From Python 3.14 on they answer `False` to that too, which is left out.) The root and the directory
that it is in are there. The state records where calls created, changed or deleted something.
-/

namespace SharkRail

namespace OutputFiles

abbrev Name := String

/-- An entry of a directory: a regular file, a symbolic link, which may lead to a regular file, or a directory with the bytes of the
files in it. -/
inductive Entry where
  | file (data : Bytes)
  | link (toFile : Bool)
  | dir (size : ℕ)
  deriving DecidableEq

/-- `is_file`, which follows a link. -/
def Entry.isFile : Entry → Bool
  | .file _ => true
  | .link toFile => toFile
  | .dir _ => false

def Entry.isSymlink : Entry → Bool
  | .link _ => true
  | .file _ | .dir _ => false

/-- The bytes of the regular files that an entry is or holds. -/
def Entry.size : Entry → ℕ
  | .file data => data.length
  | .link _ => 0
  | .dir size => size

/-- A directory; it is private when the service owns it and no other user may write to it. -/
structure Directory where
  isPrivate : Bool
  entries : AList fun _ : Name => Entry

/-- What a link of the root leads to: an entry of the root, or a place outside the store. -/
inductive LinkTarget where
  | sibling (name : Name)
  | outside (number : ℕ)
  deriving DecidableEq

/-- An entry of the root. -/
inductive Child where
  | dir (directory : Directory)
  | file (data : Bytes)
  | link (target : LinkTarget)

/-- The entries of the root, the directory that the root is in, which has the root among its entries, and the directories that links lead
to outside. -/
structure Tree where
  children : AList fun _ : Name => Child
  parent : Directory
  outside : ℕ → Option Directory

/-- A path that the store makes of a name: `root / name`. -/
inductive Place where
  | parent
  | child (name : Name)
  deriving DecidableEq

/-- Where a directory is. -/
inductive Location where
  | parent
  | child (name : Name)
  | outside (number : ℕ)
  deriving DecidableEq

inductive OsError where
  | valueError (message : String)
  | osError (message : String)
  | permissionError (message : String)
  | fileNotFoundError
  | fileExistsError
  | notADirectoryError
  | isADirectoryError
  | directoryNotEmpty
  | tooManyLinks
  | injected
  deriving DecidableEq

/-- What the store is configured with, its root and its quota, and what it uses of the host: which directories are shared by the system,
how many bytes a name may have, and where the parent of a path leads to, if it leads to an entry of the root. -/
structure Host where
  root : String
  maxTotalBytes : Int
  shared : Place → Bool
  nameMax : ℕ
  parentOf : Tree → String → Option Name

/-- The names that an entry may be created with. -/
def Host.accepts (host : Host) (name : Name) : Bool := !name.toList.contains '\u0000' && name.utf8ByteSize ≤ host.nameMax

/-- The store: its tree, the bytes it accounts for, and where its calls created, changed or deleted something. -/
structure FileStore where
  tree : Tree
  usedBytes : Int
  touched : List Location := []

abbrev Op := EStateM OsError FileStore

/-! ## Names -/

/-- The parts of a path between its separators. -/
def pathParts (path : List Char) : List (List Char) :=
  (path.splitOn '/').filter fun part => part ≠ [] ∧ part ≠ ['.']

/-- `Path(path).name`. -/
def pathName (path : String) : String := String.ofList ((pathParts path.toList).getLast?.getD [])

/-- `job_id and Path(job_id).name == job_id`. -/
def isName (jobId : String) : Bool := jobId ≠ "" && pathName jobId = jobId

/-- `root / name`. -/
def place (name : Name) : Place := if name = ".." then .parent else .child name

def binName (stream : Stream) : Name := stream.value ++ ".bin"

/-- The path of a stream of a job, as it is returned. -/
def targetPath (host : Host) (jobId : String) (stream : Stream) : String := host.root ++ "/" ++ jobId ++ "/" ++ binName stream

/-- The name of a staging directory. -/
def stagingName (jobId token : String) : Name := "." ++ jobId ++ "." ++ token ++ ".tmp"

/-- A lower-case hexadecimal digit. -/
def isHexDigit (c : Char) : Bool := ('0' ≤ c && c ≤ '9') || ('a' ≤ c && c ≤ 'f')

def isHex (length : ℕ) (text : List Char) : Bool := text.length = length && text.all isHexDigit

/-- `_JOB_DIRECTORY.fullmatch`. -/
def isJobDirectory (name : Name) : Bool := name.toList.take 4 = "job_".toList && isHex 32 (name.toList.drop 4)

/-- `_STAGING_DIRECTORY.fullmatch`. -/
def isStagingDirectory (name : Name) : Bool :=
  let text := name.toList
  text.take 5 = ".job_".toList && isHex 32 ((text.drop 5).take 32) && (text.drop 37).take 1 = ['.'] &&
    isHex 16 ((text.drop 38).take 16) && text.drop 54 = ".tmp".toList

/-! ## The tree -/

namespace Tree

/-- What a path is, without following a link. -/
inductive Kind where
  | directory (isPrivate : Bool)
  | regular
  | symlink
  deriving DecidableEq

def kind (t : Tree) : Place → Option Kind
  | .parent => some (.directory t.parent.isPrivate)
  | .child name => (t.children.lookup name).map fun
    | .dir d => .directory d.isPrivate
    | .file _ => .regular
    | .link _ => .symlink

/-- The directory at a location. -/
def directoryAt (t : Tree) : Location → Option Directory
  | .parent => some t.parent
  | .outside number => t.outside number
  | .child name =>
    match t.children.lookup name with
    | some (.dir d) => some d
    | _ => none

/-- Where a path leads to. -/
def locate (t : Tree) : Place → Location
  | .parent => .parent
  | .child name =>
    match t.children.lookup name with
    | some (.link (.sibling name)) => .child name
    | some (.link (.outside number)) => .outside number
    | _ => .child name

/-- The directory that a path leads to. -/
def directory (t : Tree) (p : Place) : Option Directory := t.directoryAt (t.locate p)

/-- `exists`, which follows a link. -/
def leadsSomewhere (t : Tree) (p : Place) : Bool :=
  match t.locate p with
  | .parent => true
  | .outside number => (t.outside number).isSome
  | .child name => (t.children.lookup name).isSome

/-- The directory at a location, with other entries. -/
def setEntries (t : Tree) (location : Location) (f : AList (fun _ : Name => Entry) → AList fun _ : Name => Entry) : Tree :=
  match location with
  | .parent => { t with parent := { t.parent with entries := f t.parent.entries } }
  | .outside number =>
    { t with outside := fun n => if n = number then (t.outside n).map fun d => { d with entries := f d.entries } else t.outside n }
  | .child name =>
    match t.children.lookup name with
    | some (.dir d) => { t with children := t.children.insert name (.dir { d with entries := f d.entries }) }
    | _ => t

/-- `resolve`, of a path that leads to an entry of the root. -/
def resolve (t : Tree) : Place → Option Name
  | .parent => none
  | .child name =>
    match t.children.lookup name with
    | some (.link (.sibling name)) => some name
    | some (.link (.outside _)) => none
    | _ => some name

end Tree

/-- The bytes of the files in a directory, at any depth. -/
def Directory.size (d : Directory) : ℕ := (d.entries.entries.map fun e => e.2.size).sum

def Child.size : Child → ℕ
  | .dir d => d.size
  | .file data => data.length
  | .link _ => 0

/-- What `_scan_size_locked` computes. -/
def Tree.size (t : Tree) : ℕ := (t.children.entries.map fun c => c.2.size).sum

/-! ## System calls -/

/-- A call that changes nothing. -/
def call (fails : Bool) : Op Unit := if fails then throw .injected else pure ()

/-- `os.path.lexists`. -/
def lexists (fails : Bool) (p : Place) : Op Bool := return !fails && ((← get).tree.kind p).isSome

def mkdir (host : Host) (fails : Bool) (p : Place) : Op Unit := do
  call fails
  match p with
  | .parent => throw .fileExistsError
  | .child name =>
    if !host.accepts name then throw (.osError "invalid name")
    else if ((← get).tree.children.lookup name).isSome then throw .fileExistsError
    else
      modify fun s =>
        { s with tree.children := s.tree.children.insert name (.dir ⟨true, ∅⟩), touched := s.touched ++ [.child name] }

/-- `iterdir`. -/
def iterdir (fails : Bool) (p : Place) : Op (List (Name × Entry)) := do
  call fails
  match (← get).tree.directory p with
  | some d => pure (d.entries.entries.map fun e => (e.1, e.2))
  | none => if (← get).tree.kind p = some .regular then throw .notADirectoryError else throw .fileNotFoundError

/-- The entries of the directory that a path leads to, changed. -/
def modifyEntries (p : Place) (f : AList (fun _ : Name => Entry) → AList fun _ : Name => Entry) : Op Unit :=
  modify fun s => { s with tree := s.tree.setEntries (s.tree.locate p) f, touched := s.touched ++ [s.tree.locate p] }

def unlink (fails : Bool) (p : Place) (name : Name) : Op Unit := do
  call fails
  match ((← get).tree.directory p).bind fun d => d.entries.lookup name with
  | none => throw .fileNotFoundError
  | some (.dir _) => throw .isADirectoryError
  | some _ => modifyEntries p (AList.erase name)

def rmdir (fails : Bool) (p : Place) : Op Unit := do
  call fails
  match p with
  | .parent => throw .directoryNotEmpty
  | .child name =>
    match (← get).tree.children.lookup name with
    | some (.dir d) =>
      if d.entries.keys.isEmpty then
        modify fun s => { s with tree.children := s.tree.children.erase name, touched := s.touched ++ [.child name] }
      else throw .directoryNotEmpty
    | some _ => throw .notADirectoryError
    | none => throw .fileNotFoundError

/-- `os.replace` of a file by another of its directory. -/
def replaceFile (fails : Bool) (p : Place) (source target : Name) : Op Unit := do
  call fails
  match (← get).tree.directory p with
  | none => throw .fileNotFoundError
  | some d =>
    match d.entries.lookup source, d.entries.lookup target with
    | none, _ => throw .fileNotFoundError
    | some _, some (.dir _) => throw .isADirectoryError
    | some entry, _ => modifyEntries p fun entries => (entries.erase source).insert target entry

/-- `os.replace` of a directory of the root. -/
def replaceDirectory (host : Host) (fails : Bool) (source : Name) (p : Place) : Op Unit := do
  call fails
  match (← get).tree.children.lookup source, p with
  | none, _ => throw .fileNotFoundError
  | some _, .parent => throw .directoryNotEmpty
  | some moved, .child target =>
    if !host.accepts target then throw (.osError "invalid name")
    else
      let move : Op Unit :=
        modify fun s =>
          { s with
            tree.children := (s.tree.children.erase source).insert target moved
            touched := s.touched ++ [.child source, .child target] }
      match (← get).tree.children.lookup target with
      | none => move
      | some (.dir d) => if d.entries.keys.isEmpty then move else throw .directoryNotEmpty
      | some _ => throw .notADirectoryError

/-! ## Private directories -/

inductive EnsureCall where
  | lexists
  | lstat
  | lexistsAgain
  | mkdir
  | lstatFound
  | open
  | fchmod
  | close
  deriving DecidableEq

/-- `_validate_posix_private_path`, of a directory. -/
def validatePrivateDirectory (fails : Bool) (p : Place) : Op Unit := do
  call fails
  match (← get).tree.kind p with
  | none => throw .fileNotFoundError
  | some .symlink => throw (.permissionError "private path must not be a symbolic link")
  | some .regular => throw (.permissionError "private path is not a directory")
  | some (.directory false) => throw (.permissionError "private path permissions are too broad")
  | some (.directory true) => pure ()

/-- `ensure_private_directory`. The root is there, so nothing above the path is made: a failure to see the root only makes its `mkdir` find
it, as it finds a path that two failures hid. -/
def ensurePrivateDirectory (host : Host) (fails : EnsureCall → Bool) (p : Place) : Op Bool := do
  if host.shared p then throw (.permissionError "refusing to use shared system directory")
  else if ← lexists (fails .lexists) p then
    validatePrivateDirectory (fails .lstat) p
    pure false
  else if ← lexists (fails .lexistsAgain) p then pure true
  else
    let made ← tryCatch (do
        mkdir host (fails .mkdir) p
        pure true)
      fun e =>
        if e = .fileExistsError then do
          validatePrivateDirectory (fails .lstatFound) p
          pure false
        else throw e
    if made then
      call (fails .open)
      call (fails .fchmod)
      call (fails .close)
    pure true

/-! ## Parts of the methods -/

inductive SizeCall where
  | lexists
  | iterdir
  | isFile (name : Name)
  | isSymlink (name : Name)
  | stat (name : Name)
  deriving DecidableEq

/-- What a child adds to `_directory_size_locked`. -/
def childSize (fails : SizeCall → Bool) (size : ℕ) (child : Name × Entry) : Op ℕ := do
  let (name, entry) := child
  call (fails (.isFile name))
  if !entry.isFile then pure size
  else
    call (fails (.isSymlink name))
    if entry.isSymlink then pure size
    else
      call (fails (.stat name))
      pure (size + entry.size)

/-- `_directory_size_locked`. -/
def directorySizeLocked (fails : SizeCall → Bool) (p : Place) : Op ℕ := do
  if ← lexists (fails .lexists) p then
    let children ← iterdir (fails .iterdir) p
    children.foldlM (childSize fails) 0
  else pure 0

inductive RemoveCall where
  | lexists
  | ensure (call : EnsureCall)
  | iterdir
  | isFile (name : Name)
  | isSymlink (name : Name)
  | isFileAgain (name : Name)
  | isSymlinkAgain (name : Name)
  | stat (name : Name)
  | unlink (name : Name)
  | rmdir
  deriving DecidableEq

/-- One turn of the loop of `_remove_job_directory`, with the bytes that were removed so far. -/
def removeChild (fails : RemoveCall → Bool) (p : Place) (removed : ℕ) (child : Name × Entry) : Op ℕ := do
  let (name, entry) := child
  call (fails (.isFile name))
  if !entry.isFile then call (fails (.isSymlink name))
  if !entry.isFile && !entry.isSymlink then throw (.osError "unexpected directory in Job output")
  else
    call (fails (.isFileAgain name))
    if entry.isFile then call (fails (.isSymlinkAgain name))
    let counted := entry.isFile && !entry.isSymlink
    if counted then call (fails (.stat name))
    unlink (fails (.unlink name)) p name
    pure (if counted then removed + entry.size else removed)

/-- `_remove_job_directory`. -/
def removeJobDirectory (host : Host) (fails : RemoveCall → Bool) (p : Place) (missingOk : Bool) : Op ℕ := do
  if ← lexists (fails .lexists) p then
    let _ ← ensurePrivateDirectory host (fun c => fails (.ensure c)) p
    let children ← tryCatch (some <$> iterdir (fails .iterdir) p) fun e =>
      if e = .fileNotFoundError && missingOk then pure none else throw e
    match children with
    | none => pure 0
    | some children =>
      let removed ← children.foldlM (removeChild fails p) 0
      rmdir (fails .rmdir) p
      pure removed
  else if missingOk then pure 0
  else throw .fileNotFoundError

inductive TempCall where
  | openDirectory
  | open
  | fchmod
  | close
  deriving DecidableEq

/-- `create_private_temp_file`: the first of the names drawn that is free. -/
def createPrivateTempFile (fails : TempCall → Bool) (p : Place) (stream : Stream) (tokens : List String) : Op Name := do
  call (fails .openDirectory)
  match (← get).tree.kind p, (← get).tree.directory p with
  | some (.directory _), some d =>
    match (tokens.map fun token => "." ++ stream.value ++ "." ++ token).find? fun name => (d.entries.lookup name).isNone with
    | none => throw .fileExistsError
    | some name =>
      call (fails .open)
      modifyEntries p (AList.insert name (.file []))
      call (fails .fchmod)
      call (fails .close)
      pure name
  | some .symlink, _ => throw .tooManyLinks
  | some .regular, _ => throw .notADirectoryError
  | _, _ => throw .fileNotFoundError

/-- The calls on the descriptor of a temporary file. -/
inductive FileCall where
  | fdopen
  | write
  | flush
  | fsync
  | close
  deriving DecidableEq

/-- The data goes into the temporary file. -/
def writeTemporary (fails : FileCall → Bool) (p : Place) (temporary : Name) (data : Bytes) : Op Unit := do
  call (fails .fdopen)
  call (fails .write)
  modifyEntries p (AList.insert temporary (.file data))
  call (fails .flush)
  call (fails .fsync)
  call (fails .close)

/-- The calls on an open directory or file. -/
inductive SyncCall where
  | open
  | sync
  | close
  deriving DecidableEq

/-- `_sync_directory`, and `secure_private_path`, of a path that is there. -/
def syncPath (fails : SyncCall → Bool) : Op Unit := do
  call (fails .open)
  call (fails .sync)
  call (fails .close)

/-- `self._used_bytes = self._scan_size_locked()`. -/
def rescan (fails : Bool) : Op Unit := do
  call fails
  modify fun s => { s with usedBytes := s.tree.size }

/-! ## The methods -/

/-- The random tokens that a call draws. -/
structure Draws where
  staging : String
  staging_hex : staging.toList.all isHexDigit = true
  temporary : Stream → List String
  temporary_ne : ∀ stream, temporary stream ≠ []

/-- The quota: what is used, without what is there already, and with what is to be written. -/
def checkCapacity (host : Host) (existing new : ℕ) : Op Unit := do
  if (← get).usedBytes - existing + new > host.maxTotalBytes then throw (.osError "output store capacity exceeded") else pure ()

inductive WriteCall where
  | ensure (call : EnsureCall)
  | isFile
  | isSymlink
  | stat
  | temp (call : TempCall)
  | file (call : FileCall)
  | replace
  | secure (call : SyncCall)
  | sync (call : SyncCall)
  | unlink
  deriving DecidableEq

/-- The size of the file that `write` replaces. -/
def existingSize (fails : WriteCall → Bool) (p : Place) (name : Name) : Op ℕ := do
  call (fails .isFile)
  match ((← get).tree.directory p).bind fun d => d.entries.lookup name with
  | none => pure 0
  | some entry =>
    if !entry.isFile then pure 0
    else
      call (fails .isSymlink)
      if entry.isSymlink then pure 0
      else
        call (fails .stat)
        pure entry.size

/-- `write`. -/
def write (host : Host) (fails : WriteCall → Bool) (draws : Draws) (jobId : String) (stream : Stream) (data : Bytes) : Op String := do
  if !isName jobId then throw (.osError "invalid output Job ID")
  else
    let target := place jobId
    let _ ← ensurePrivateDirectory host (fun c => fails (.ensure c)) target
    let existing ← existingSize fails target (binName stream)
    checkCapacity host existing data.length
    let temporary ← createPrivateTempFile (fun c => fails (.temp c)) target stream (draws.temporary stream)
    tryCatch (do
        writeTemporary (fun c => fails (.file c)) target temporary data
        replaceFile (fails .replace) target temporary (binName stream)
        modify fun s => { s with usedBytes := s.usedBytes + (data.length - existing) }
        syncPath fun c => fails (.secure c)
        syncPath fun c => fails (.sync c))
      fun e => do
        tryCatch (unlink (fails .unlink) target temporary) fun _ => pure ()
        throw e
    pure (targetPath host jobId stream)

inductive StageCall where
  | temp (call : TempCall)
  | file (call : FileCall)
  | replace
  deriving DecidableEq

/-- One stream written into the staging directory. -/
def stage (fails : StageCall → Bool) (draws : Draws) (staging : Place) (stream : Stream) (data : Bytes) : Op Unit := do
  let temporary ← createPrivateTempFile (fun c => fails (.temp c)) staging stream (draws.temporary stream)
  writeTemporary (fun c => fails (.file c)) staging temporary data
  replaceFile (fails .replace) staging temporary (binName stream)

inductive WriteJobCall where
  | lexists
  | ensureTarget (call : EnsureCall)
  | size (call : SizeCall)
  | ensureStaging (call : EnsureCall)
  | stage (stream : Stream) (call : StageCall)
  | syncStaging (call : SyncCall)
  | exists
  | remove (call : RemoveCall)
  | replace
  | syncRoot (call : SyncCall)
  | cleanup (call : RemoveCall)
  | rescan
  deriving DecidableEq

/-- `write_job` up to the staging directory. -/
def prepare (host : Host) (fails : WriteJobCall → Bool) (target staging : Place) (stdout stderr : Bytes) : Op Unit := do
  if ← lexists (fails .lexists) target then
    let _ ← ensurePrivateDirectory host (fun c => fails (.ensureTarget c)) target
  let existing ← directorySizeLocked (fun c => fails (.size c)) target
  checkCapacity host existing (stdout.length + stderr.length)
  let _ ← ensurePrivateDirectory host (fun c => fails (.ensureStaging c)) staging

/-- Both streams in the staging directory. -/
def stageStreams (fails : WriteJobCall → Bool) (draws : Draws) (staging : Place) (stdout stderr : Bytes) : Op Unit := do
  stage (fun c => fails (.stage .stdout c)) draws staging .stdout stdout
  stage (fun c => fails (.stage .stderr c)) draws staging .stderr stderr
  syncPath fun c => fails (.syncStaging c)

/-- The staging directory in the place of the old one. -/
def publish (host : Host) (fails : WriteJobCall → Bool) (target : Place) (staging : Name) (stdout stderr : Bytes) : Op Unit := do
  call (fails .exists)
  if (← get).tree.leadsSomewhere target then
    let removed ← removeJobDirectory host (fun c => fails (.remove c)) target false
    modify fun s => { s with usedBytes := s.usedBytes - removed }
  replaceDirectory host (fails .replace) staging target
  modify fun s => { s with usedBytes := s.usedBytes + (stdout.length + stderr.length) }
  syncPath fun c => fails (.syncRoot c)

/-- `write_job`. -/
def writeJob (host : Host) (fails : WriteJobCall → Bool) (draws : Draws) (jobId : String) (stdout stderr : Bytes) :
    Op (String × String) := do
  if !isName jobId then throw (.osError "invalid output Job ID")
  else
    let target := place jobId
    let staging := stagingName jobId draws.staging
    prepare host fails target (.child staging) stdout stderr
    tryCatch (do
        stageStreams fails draws (.child staging) stdout stderr
        publish host fails target staging stdout stderr)
      fun e => do
        let _ ← removeJobDirectory host (fun c => fails (.cleanup c)) (.child staging) true
        rescan (fails .rescan)
        throw e
    pure (targetPath host jobId .stdout, targetPath host jobId .stderr)

inductive ReconcileCall where
  | iterdir
  | isSymlink (name : Name)
  | isDir (name : Name)
  | remove (name : Name) (call : RemoveCall)
  | rescan
  deriving DecidableEq

/-- One turn of the loop of `reconcile`, with the number of directories that were removed so far. -/
def reconcileChild (host : Host) (fails : ReconcileCall → Bool) (referenced : List Name) (removed : ℕ) (child : Name × Child) : Op ℕ := do
  let (name, entry) := child
  call (fails (.isSymlink name))
  match entry with
  | .dir _ =>
    call (fails (.isDir name))
    if !isStagingDirectory name && !isJobDirectory name then throw (.osError "unexpected entry in output store")
    else if !isStagingDirectory name && referenced.contains name then pure removed
    else
      let _ ← removeJobDirectory host (fun c => fails (.remove name c)) (.child name) false
      pure (removed + 1)
  | .file _ | .link _ => throw (.osError "unexpected entry in output store")

/-- `reconcile`. -/
def reconcile (host : Host) (fails : ReconcileCall → Bool) (referenced : List Name) : Op ℕ := do
  let removed ← tryCatch (do
      call (fails .iterdir)
      let children := (← get).tree.children.entries.map fun c => (c.1, c.2)
      children.foldlM (reconcileChild host fails referenced) 0)
    fun e => do
      rescan (fails .rescan)
      throw e
  rescan (fails .rescan)
  pure removed

inductive DeleteJobCall where
  | remove (call : RemoveCall)
  | rescan
  deriving DecidableEq

/-- The check of a path that `delete_job` is given. -/
def pathEscapes (host : Host) (t : Tree) (resolved : Name) (path : Option String) : Bool :=
  path.any fun p => !(["stdout.bin", "stderr.bin"].contains (pathName p)) || host.parentOf t p ≠ some resolved

/-- `delete_job`. -/
def deleteJob (host : Host) (fails : DeleteJobCall → Bool) (jobId : String) (stdoutPath stderrPath : Option String) : Op Unit := do
  if !isName jobId then throw (.osError "invalid output Job ID")
  else
    let target := place jobId
    let tree := (← get).tree
    match tree.resolve target with
    | none => throw (.osError "Job output directory escapes output store")
    | some resolved =>
      if pathEscapes host tree resolved stdoutPath || pathEscapes host tree resolved stderrPath then
        throw (.osError "persisted output path escapes Job output directory")
      else
        tryCatch (do
            let removed ← removeJobDirectory host (fun c => fails (.remove c)) target true
            modify fun s => { s with usedBytes := s.usedBytes - removed })
          fun e => do
            rescan (fails .rescan)
            throw e

end OutputFiles

end SharkRail

import SharkRail.Lib.Files
import SharkRail.Store.Operations

/-!
# The output store

`FileOutputStore`: one directory for each job, published by renaming a staging directory. Each method is the list of its effects on
the directories, applied as a whole while the lock of the store is held, or cut off by an exception or a crash. What is flushed and
renamed is durable, so the lists have no effects for `fsync`.
-/

namespace SharkRail

abbrev Bytes := List UInt8

/-- The exceptions that reach the executor: the cancellation of its task, and the others with their type and message. -/
inductive Exc where
  | cancelledError
  | error (osError : Bool) (type : String) (message : PyStr)
  deriving DecidableEq

/-- How a call may go wrong beyond what its own code raises: before it does anything, after it did everything, or, where it has
several effects, in the middle: after `done` of them, with `cleaned` effects of its own cleanup. -/
inductive Fault where
  | none
  | before (e : Exc)
  | after (e : Exc)
  | torn (done cleaned : Nat) (e : Exc)
  deriving DecidableEq

inductive Stream where
  | stdout
  | stderr
  deriving DecidableEq

def Stream.value : Stream → String
  | .stdout => "stdout"
  | .stderr => "stderr"

/-- The files of a job directory: a stream, or the file its bytes are written to before it is renamed. -/
inductive FileName where
  | bin (stream : Stream)
  | temporary (stream : Stream)
  deriving DecidableEq

/-- The directories under the root: of a job, or of a job whose output is being staged, with a token of its own. -/
inductive DirName where
  | job (jobId : Uuid)
  | staging (jobId : Uuid) (token : Nat)
  deriving DecidableEq

abbrev OutputEffect := Files.Effect DirName FileName Bytes

abbrev OutputDir := Files.Dir FileName Bytes

abbrev OutputTree := Files.Tree DirName FileName Bytes

/-- The arguments of the constructor. -/
structure OutputConfig where
  root : String
  maxTotalBytes : Int := 1024 * 1024 * 1024

/-- The output store: the directories under its root, the bytes it accounts for, and how many tokens it has drawn. -/
structure Output where
  dirs : OutputTree
  usedBytes : Int
  tokens : Nat

/-- `_directory_size_locked`. -/
def directorySize (files : Option OutputDir) : Int :=
  match files with
  | some files => (files.entries.map fun f => (f.2.length : Int)).sum
  | none => 0

/-- `_scan_size_locked`. -/
def scanSize (dirs : OutputTree) : Int := (dirs.entries.map fun d => directorySize (some d.2)).sum

/-- The path of a stream of a job, as the job row has it. -/
def outputPath (cfg : OutputConfig) (jobId : Uuid) (stream : Stream) : String :=
  cfg.root ++ "/" ++ String.ofList (idText "job_" jobId) ++ "/" ++ stream.value ++ ".bin"

/-- The two paths that `write_job` returns. -/
def jobPaths (cfg : OutputConfig) (jobId : Uuid) : String × String :=
  (outputPath cfg jobId .stdout, outputPath cfg jobId .stderr)

namespace Output

/-- One stream written into a staging directory: a temporary file created, written, flushed, and renamed. -/
def stageEffects (staging : DirName) (stream : Stream) (data : Bytes) : List OutputEffect :=
  [.write staging (.temporary stream) [], .write staging (.temporary stream) data,
    .replaceFile staging (.temporary stream) (.bin stream)]

/-- `_remove_job_directory`, of a directory that may be missing. -/
def removeEffects (d : DirName) (dirs : OutputTree) : List OutputEffect :=
  match dirs.lookup d with
  | some files => Files.removal d files
  | none => []

/-- The effects of `write_job`: both streams staged, the job's old directory removed, and the staging directory renamed. -/
def writeEffects (jobId : Uuid) (stdout stderr : Bytes) (o : Output) : List OutputEffect :=
  let staging := DirName.staging jobId o.tokens
  .mkdir staging :: stageEffects staging .stdout stdout ++ stageEffects staging .stderr stderr ++
    removeEffects (.job jobId) o.dirs ++ [.replaceDir staging (.job jobId)]

/-- The directories when `write_job` is cut off: by an exception after `done` effects, which removes the staging directory, or by
a crash after `cleaned` effects of that. Nothing is cleaned up when the staging directory could not be made. -/
def tornWrite (jobId : Uuid) (stdout stderr : Bytes) (done cleaned : Nat) (o : Output) : OutputTree :=
  let dirs := Files.run o.dirs ((writeEffects jobId stdout stderr o).take done)
  if done = 0 then dirs
  else Files.run dirs ((removeEffects (.staging jobId o.tokens) dirs).take cleaned)

/-- `write_job`. -/
def writeJob (cfg : OutputConfig) (fault : Fault) (jobId : Uuid) (stdout stderr : Bytes) (o : Output) :
    Except Exc (String × String) × Output :=
  let existing := directorySize (o.dirs.lookup (.job jobId))
  let o' := { o with tokens := o.tokens + 1 }
  if o.usedBytes - existing + stdout.length + stderr.length > cfg.maxTotalBytes then
    (.error (.error true "OSError" "output store capacity exceeded"), o')
  else
    let dirs := Files.run o.dirs (writeEffects jobId stdout stderr o)
    match fault with
    | .none =>
      (.ok (jobPaths cfg jobId), { o' with dirs, usedBytes := o.usedBytes - existing + stdout.length + stderr.length })
    | .before e => (.error e, o')
    | .after e => (.error e, { o' with dirs, usedBytes := scanSize dirs })
    | .torn done cleaned e =>
      let dirs := tornWrite jobId stdout stderr done cleaned o
      (.error e, { o' with dirs, usedBytes := scanSize dirs })

/-- The check of a path that `delete_job` is given: a file of the job's directory, by its name there. -/
def pathInside (cfg : OutputConfig) (jobId : Uuid) (path : Option String) : Bool :=
  path.all fun p => p = outputPath cfg jobId .stdout ∨ p = outputPath cfg jobId .stderr

/-- `delete_job`. -/
def deleteJob (cfg : OutputConfig) (fault : Fault) (jobId : Uuid) (stdoutPath stderrPath : Option String) (o : Output) :
    Except Exc Unit × Output :=
  if !(pathInside cfg jobId stdoutPath && pathInside cfg jobId stderrPath) then
    (.error (.error true "OSError" "persisted output path escapes Job output directory"), o)
  else
    let effects := removeEffects (.job jobId) o.dirs
    let dirs := Files.run o.dirs effects
    match fault with
    | .none => (.ok (), { o with dirs, usedBytes := o.usedBytes - directorySize (o.dirs.lookup (.job jobId)) })
    | .before e => (.error e, o)
    | .after e => (.error e, { o with dirs, usedBytes := scanSize dirs })
    | .torn done _ e =>
      let dirs := Files.run o.dirs (effects.take done)
      (.error e, { o with dirs, usedBytes := scanSize dirs })

/-- A directory that `reconcile` removes: a staging directory, or one of a job that is not referenced. -/
def leftover (referenced : List Uuid) : DirName → Bool
  | .staging _ _ => true
  | .job jobId => !referenced.contains jobId

/-- The effects of `reconcile`, one directory after the other. -/
def reconcileEffects (referenced : List Uuid) (o : Output) : List OutputEffect :=
  (o.dirs.keys.filter (leftover referenced)).flatMap fun d => removeEffects d o.dirs

/-- `reconcile`: what it removed, and the store after it. -/
def reconcile (referenced : List Uuid) (o : Output) : Nat × Output :=
  let dirs := Files.run o.dirs (reconcileEffects referenced o)
  ((o.dirs.keys.filter (leftover referenced)).length, { o with dirs, usedBytes := scanSize dirs })

/-- The store after a crash in the middle of `reconcile`. -/
def tornReconcile (referenced : List Uuid) (done : Nat) (o : Output) : Output :=
  { o with dirs := Files.run o.dirs ((reconcileEffects referenced o).take done) }

end Output

/-- `referenced_output_job_ids`. -/
def Store.referencedOutputJobIds (s : Store) : List Uuid :=
  (Table.select (fun r : JobRow => r.stdoutPath.isSome || r.stderrPath.isSome) s.jobs).map (·.id) ++
    s.deletions.map (·.jobId)

end SharkRail

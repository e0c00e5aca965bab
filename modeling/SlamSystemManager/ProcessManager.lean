import Mathlib.Data.List.Perm.Basic
import Mathlib.Data.String.Basic
import SlamSystemManager.Library.Posix

/-!
# The process manager

`ProcessManager` over the children, process groups and ids of the kernel. Every section under the
mutex is one step; the threads that stop or restart a process stand between their sections, where
they send signals, read the clock and sleep. Times are in nanoseconds of the steady clock. A signal
leaves it to its receivers when they exit, and whether they do.
-/

namespace SlamSystemManager.ProcessManager

open Posix

/-! ## Commands -/

def isIdentifierHead (c : Char) : Bool := c.isAlpha || c = '_'

def isIdentifierTail (c : Char) : Bool := c.isAlphanum || c = '_'

/-- The text with every occurrence of a token replaced, the search going on after what has been put
in; the first `skip` characters belong to an occurrence already replaced. -/
def replaceAll (token value : List Char) : ℕ → List Char → List Char
  | _, [] => []
  | skip + 1, _ :: rest => replaceAll token value skip rest
  | 0, c :: rest =>
    if token.isPrefixOf (c :: rest) then
      value ++ replaceAll token value (token.length - 1) rest
    else c :: replaceAll token value 0 rest

/-- A match of `\{[A-Za-z_][A-Za-z0-9_]*\}` at the start of a text. -/
def unresolvedAt : List Char → Option (List Char)
  | '\x7b' :: head :: rest =>
    let tail := rest.takeWhile isIdentifierTail
    if isIdentifierHead head && (rest.drop tail.length).head? = some '\x7d' then
      some ('\x7b' :: head :: tail ++ ['\x7d'])
    else none
  | _ => none

/-- The leftmost match. -/
def unresolved? : List Char → Option (List Char)
  | [] => none
  | c :: rest => (unresolvedAt (c :: rest)).orElse fun _ ↦ unresolved? rest

/-- `expandCommand`, for the substitutions in the order of the iteration over the map. -/
def expandCommand (command : String) (substitutions : List (String × String)) :
    Except String String :=
  let expanded := substitutions.foldl
    (fun text substitution ↦
      replaceAll ('\x7b' :: substitution.1.toList ++ ['\x7d']) substitution.2.toList 0 text)
    command.toList
  match unresolved? expanded with
  | some token => .error ("Missing command substitution for token: " ++ String.ofList token)
  | none => .ok (String.ofList expanded)

/-- The substitutions of a start, which replace those of the configuration. -/
def mergeSubstitutions (defaults substitutions : List (String × String)) : List (String × String) :=
  defaults.filter (fun default ↦ (substitutions.lookup default.1).isNone) ++ substitutions

/-! ## Records -/

/-- The timeouts are the durations they are cast to. -/
structure ProcessConfig where
  command : String
  workingDirectory : String := ""
  substitutions : List (String × String) := []
  autoStart : Bool := false
  sigintTimeout : ℕ := 5000000000
  sigtermTimeout : ℕ := 2000000000

instance : Inhabited ProcessConfig := ⟨{ command := "" }⟩

structure ProcessRecord where
  config : ProcessConfig
  pid : ℤ := -1
  lastExitCode : Option ℤ := none

/-- The map from names to records; what it has for other names does not count. -/
structure ProcessTable where
  names : List String
  /-- The order of the iteration over the map. -/
  sorted : names.Pairwise (· < ·)
  record : String → ProcessRecord

def ProcessTable.find? (table : ProcessTable) (name : String) : Option ProcessRecord :=
  if name ∈ table.names then some (table.record name) else none

def ProcessTable.set (table : ProcessTable) (name : String) (record : ProcessRecord) :
    ProcessTable :=
  { table with record := Function.update table.record name record }

/-- The definitions `loadConfig` has read from a file. -/
structure ProcessConfigs where
  names : List String
  sorted : names.Pairwise (· < ·)
  config : String → ProcessConfig

/-- The table of a file that has been read, with no process in it. -/
def ProcessConfigs.table (configs : ProcessConfigs) : ProcessTable where
  names := configs.names
  sorted := configs.sorted
  record name := { config := configs.config name }

/-- What the sections under the mutex read and change. -/
structure Shared where
  table : ProcessTable
  kernel : Kernel String

/-! ## Sections under the mutex -/

def normalizedExitCode : WaitStatus → ℤ
  | .exited code => code
  | .signaled signal => 128 + signal
  | .stopped _ => -1

/-- `refreshProcessLocked`. -/
def refreshProcessLocked (kernel : Kernel String) (record : ProcessRecord)
    (fault : Option WaitFault) : Kernel String × ProcessRecord × Bool :=
  if record.pid ≤ 0 then (kernel, record, false)
  else
    match kernel.waitpid record.pid fault with
    | (kernel, .none) => (kernel, record, true)
    | (kernel, .status status) =>
      (kernel, { record with pid := -1, lastExitCode := some (normalizedExitCode status) }, false)
    | (kernel, .fault .eintr) => (kernel, record, true)
    | (kernel, .echild) => (kernel, { record with pid := -1 }, false)
    | (kernel, .fault .other) => (kernel, record, true)

/-- A refresh of the record of a name in the table. -/
def Shared.refresh (s : Shared) (name : String) (fault : Option WaitFault) : Shared × Bool :=
  let refreshed := refreshProcessLocked s.kernel (s.table.record name) fault
  ({ table := s.table.set name refreshed.2.1, kernel := refreshed.1 }, refreshed.2.2)

/-- `isProcessRunning`. -/
def isProcessRunning (s : Shared) (name : String) (fault : Option WaitFault) : Shared × Bool :=
  if name ∈ s.table.names then s.refresh name fault else (s, false)

/-- `lastExitCode`. -/
def lastExitCode (s : Shared) (name : String) (fault : Option WaitFault) : Shared × Option ℤ :=
  if name ∈ s.table.names then
    let refreshed := (s.refresh name fault).1
    (refreshed, (refreshed.table.record name).lastExitCode)
  else (s, none)

/-- How `fork` ends in the parent: an error text, or the id of the child. -/
abbrev ForkResult := Except String ℤ

/-- The substitutions of a start, with the order in which their map is iterated. -/
structure Substitutions where
  given : List (String × String) := []
  order : List (String × String) := []

/-- `startProcess`; it has no outcome with an order that is none of the map, or an id that is in
use. -/
def startProcess (s : Shared) (name : String) (substitutions : Substitutions)
    (fault : Option WaitFault) (forked : ForkResult) : Option (Shared × Except String Unit) :=
  match s.table.find? name with
  | none => some (s, .error ("Unknown process: " ++ name))
  | some record =>
    let refreshed := s.refresh name fault
    if refreshed.2 then some (refreshed.1, .error ("Process is already running: " ++ name))
    else if substitutions.order.Perm
        (mergeSubstitutions record.config.substitutions substitutions.given) then
      match expandCommand record.config.command substitutions.order with
      | .error what => some (refreshed.1, .error what)
      | .ok _ =>
        match forked with
        | .error what => some (refreshed.1, .error ("fork() failed for " ++ name ++ ": " ++ what))
        | .ok pid =>
          (refreshed.1.kernel.fork name pid).map fun kernel ↦
            let record := { refreshed.1.table.record name with pid := pid, lastExitCode := none }
            ({ table := refreshed.1.table.set name record, kernel := kernel }, .ok ())
    else none

/-- The refreshes of some names one after the other. -/
def refreshAll (faults : String → Option WaitFault) : Shared → List String → Shared
  | s, [] => s
  | s, name :: names => refreshAll faults (s.refresh name (faults name)).1 names

/-- The refreshes of some names up to one whose process is running. -/
def refreshUntilRunning (faults : String → Option WaitFault) :
    Shared → List String → Shared × Bool
  | s, [] => (s, false)
  | s, name :: names =>
    let refreshed := s.refresh name (faults name)
    if refreshed.2 then (refreshed.1, true)
    else refreshUntilRunning faults refreshed.1 names

/-- `loadConfig`, for the definitions it reads or the text of what it throws while reading. -/
def loadConfig (s : Shared) (loaded : Except String ProcessConfigs)
    (faults : String → Option WaitFault) : Shared × Except String Unit :=
  match loaded with
  | .error what => (s, .error what)
  | .ok configs =>
    let refreshed := refreshUntilRunning faults s s.table.names
    if refreshed.2 then
      (refreshed.1, .error "Cannot reload process config while a managed process is running")
    else ({ refreshed.1 with table := configs.table }, .ok ())

/-- A round of `monitorLoop`. -/
def monitorRound (s : Shared) (faults : String → Option WaitFault) : Shared :=
  refreshAll faults s s.table.names

/-- Who `signalProcessGroup` reaches. -/
def signalProcessGroup (kernel : Kernel String) (pid : ℤ) : Option Receiver := kernel.receiver pid

/-! ## Threads that stop a process -/

inductive StopSignal where
  | sigint
  | sigterm
  | sigkill
  deriving DecidableEq, Repr

/-- What `stopProcess` keeps while it waits. `child` is the place of the child with the process id
in the order of the forks, which the code does not have. -/
structure Stop where
  name : String
  pid : ℤ
  config : ProcessConfig
  child : ℕ

def kSigkillWait : ℕ := 2000000000

def kStopPollInterval : ℕ := 50000000

/-- How long a signal is given. -/
def Stop.timeout (stop : Stop) : StopSignal → ℕ
  | .sigint => stop.config.sigintTimeout
  | .sigterm => stop.config.sigtermTimeout
  | .sigkill => kSigkillWait

/-- Where a thread in `stopProcess` or `restartProcess` stands: before `isProcessRunning`, before
the lookup, before a signal after which a deadline has passed, before the clock is read for a
deadline, before a look of `waitForExit`, in its pause, before `startProcess`, or at the end. -/
inductive Point where
  | running
  | lookup
  | signal (stop : Stop) (signal : StopSignal) (expired : ℕ)
  | clock (stop : Stop) (signal : StopSignal)
  | look (stop : Stop) (signal : StopSignal) (deadline : ℕ)
  | pause (stop : Stop) (signal : StopSignal) (deadline wake : ℕ)
  | start
  | returned (result : Except String Unit)

/-- A thread in `stopProcess`, or in `restartProcess` with substitutions. -/
structure Thread where
  name : String
  restart : Option Substitutions
  point : Point

/-- What a thread cannot choose: how `waitpid` fails, when a pause ends, how `fork` ends. -/
structure Choice where
  fault : Option WaitFault := none
  wake : ℕ := 0
  forked : ForkResult := .error ""

/-- Where a stop goes on that has returned true. -/
def Thread.stopped (thread : Thread) : Point :=
  match thread.restart with
  | some _ => .start
  | none => .returned (.ok ())

/-- The look of `waitForExit`: whether the child is found to be running. -/
def Stop.look (stop : Stop) (s : Shared) (fault : Option WaitFault) : Shared × Bool :=
  if stop.name ∈ s.table.names ∧ (s.table.record stop.name).pid = stop.pid then
    s.refresh stop.name fault
  else (s, false)

/-- A step of a thread. A pause takes its interval at least, and ends when the clock is read. -/
def Thread.step (now : ℕ) (s : Shared) (choice : Choice) (thread : Thread) :
    Option (Shared × Point) :=
  match thread.point with
  | .running =>
    let running := isProcessRunning s thread.name choice.fault
    some (running.1, if running.2 then .lookup else .start)
  | .lookup =>
    match s.table.find? thread.name with
    | none => some (s, .returned (.error ("Unknown process: " ++ thread.name)))
    | some record =>
      let refreshed := s.refresh thread.name choice.fault
      if refreshed.2 then
        (refreshed.1.kernel.find? record.pid).map fun child ↦
          (refreshed.1, .signal ⟨thread.name, record.pid, record.config, child⟩ .sigint now)
      else some (refreshed.1, .returned (.error ("Process is not running: " ++ thread.name)))
  | .signal stop signal _ => some (s, .clock stop signal)
  | .clock stop signal => some (s, .look stop signal (now + stop.timeout signal))
  | .look stop signal deadline =>
    let looked := stop.look s choice.fault
    if looked.2 then
      if now + kStopPollInterval ≤ choice.wake then
        some (looked.1, .pause stop signal deadline choice.wake)
      else none
    else some (looked.1, thread.stopped)
  | .pause stop signal deadline wake =>
    if now ≠ wake then none
    else if now < deadline then some (s, .look stop signal deadline)
    else
      match signal with
      | .sigint => some (s, .signal stop .sigterm deadline)
      | .sigterm => some (s, .signal stop .sigkill deadline)
      | .sigkill =>
        some (s, .returned (.error ("Process could not be reaped after SIGKILL: " ++ thread.name)))
  | .start =>
    (startProcess s thread.name (thread.restart.getD {}) choice.fault choice.forked).map
      fun started ↦ (started.1, .returned started.2)
  | .returned _ => none

/-! ## The system -/

structure Sys where
  now : ℕ
  shared : Shared
  threads : List Thread

/-- The calls, the monitor, the processes and the clock. -/
inductive Action where
  | startProcess (name : String) (substitutions : Substitutions) (choice : Choice)
  | isProcessRunning (name : String) (choice : Choice)
  | lastExitCode (name : String) (choice : Choice)
  | loadConfig (loaded : Except String ProcessConfigs) (faults : String → Option WaitFault)
  | monitorRound (faults : String → Option WaitFault)
  | stopProcess (name : String)
  | restartProcess (name : String) (substitutions : Substitutions)
  | thread (index : ℕ) (choice : Choice)
  | childExits (child : ℕ) (status : WaitStatus)
  | memberStarts (child : ℕ) (pid : ℤ)
  | memberExits (child : ℕ) (pid : ℤ)
  | otherStarts (pid : ℤ)
  | otherExits (pid : ℤ)
  | tick (duration : ℕ)

def Sys.setKernel (s : Sys) (kernel : Kernel String) : Sys :=
  { s with shared := { s.shared with kernel := kernel } }

/-- No pause of a thread ends before a time. -/
def Thread.pausesUntil (time : ℕ) (thread : Thread) : Bool :=
  match thread.point with
  | .pause _ _ _ wake => decide (time ≤ wake)
  | _ => true

def Sys.step (s : Sys) : Action → Option Sys
  | .startProcess name substitutions choice =>
    (ProcessManager.startProcess s.shared name substitutions choice.fault choice.forked).map
      fun started ↦ { s with shared := started.1 }
  | .isProcessRunning name choice =>
    some { s with shared := (ProcessManager.isProcessRunning s.shared name choice.fault).1 }
  | .lastExitCode name choice =>
    some { s with shared := (ProcessManager.lastExitCode s.shared name choice.fault).1 }
  | .loadConfig loaded faults =>
    some { s with shared := (ProcessManager.loadConfig s.shared loaded faults).1 }
  | .monitorRound faults =>
    some { s with shared := ProcessManager.monitorRound s.shared faults }
  | .stopProcess name => some { s with threads := s.threads ++ [⟨name, none, .lookup⟩] }
  | .restartProcess name substitutions =>
    some { s with threads := s.threads ++ [⟨name, some substitutions, .running⟩] }
  | .thread index choice =>
    match s.threads[index]? with
    | none => none
    | some thread =>
      (thread.step s.now s.shared choice).map fun next ↦
        { s with
          shared := next.1
          threads := s.threads.set index { thread with point := next.2 } }
  | .childExits child status => (s.shared.kernel.exit s.now child status).map s.setKernel
  | .memberStarts child pid => (s.shared.kernel.join child pid).map s.setKernel
  | .memberExits child pid => (s.shared.kernel.leave child pid).map s.setKernel
  | .otherStarts pid => (s.shared.kernel.otherStarts pid).map s.setKernel
  | .otherExits pid => some (s.setKernel (s.shared.kernel.otherExits pid))
  | .tick duration =>
    if s.threads.all (Thread.pausesUntil (s.now + duration)) then
      some { s with now := s.now + duration }
    else none

/-- A manager that has just been constructed, at any time and beside any other processes. -/
structure Sys.Initial (s : Sys) : Prop where
  names : s.shared.table.names = []
  children : s.shared.kernel.count = 0
  threads : s.threads = []

end SlamSystemManager.ProcessManager

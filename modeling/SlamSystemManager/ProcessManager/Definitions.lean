import Mathlib.Data.List.Sort
import SlamSystemManager.Library.Yaml
import SlamSystemManager.ProcessManager.Expansion
import SlamSystemManager.ProcessManager.Leaders
import SlamSystemManager.ProcessManager.Threads

/-!
# The definitions of the processes

The reading half of `ProcessManager::loadConfig`, and what it means for the runs of the manager: the
processes it knows are those of one file, each as the file defines it.
-/

open Numeric Posix TransitionSystem Yaml

namespace SlamSystemManager.ProcessManager

/-! ## Reading -/

/-- `ProcessConfig` with its times in seconds. -/
structure Definition where
  command : String
  workingDirectory : String := ""
  substitutions : List (String × String) := []
  autoStart : Bool := false
  sigintTimeoutSec : Double := .fin 5
  sigtermTimeoutSec : Double := .fin 2
  deriving DecidableEq

/-- The definition with its times as durations. The cast is not defined for a NaN, or for a time
that no duration can hold. -/
def Definition.config (duration : Double → ℕ) (definition : Definition) : ProcessConfig where
  command := definition.command
  workingDirectory := definition.workingDirectory
  substitutions := definition.substitutions
  autoStart := definition.autoStart
  sigintTimeout := duration definition.sigintTimeoutSec
  sigtermTimeout := duration definition.sigtermTimeoutSec

/-- `^[A-Za-z][A-Za-z0-9_]*$`. -/
def validProcessName (name : String) : Bool :=
  match name.toList with
  | [] => false
  | head :: tail => head.isAlpha && tail.all isIdentifierTail

variable (convert : Conversions)

def requiredValue {α : Type} (as : Yaml → Except String α) (parent : Yaml) (key process : String) :
    Except String α :=
  convert.required ("Missing process configuration key '" ++ process ++ "." ++ key ++ "'")
    (fun what ↦ "Invalid process configuration key '" ++ process ++ "." ++ key ++ "': " ++ what)
    as parent key

def readWorkingDirectory (node : Yaml) : Except String String :=
  match node.find ["working_directory"] with
  | none => .ok ""
  | some directory => convert.asText directory

def readSubstitution (process : String) (entry : String × Yaml) : Except String (String × String) :=
  if !validSubstitutionName entry.1 then
    .error ("Invalid process substitution name '" ++ entry.1 ++ "' for " ++ process)
  else
    match convert.asText entry.2 with
    | .ok value => .ok (entry.1, value)
    | .error what =>
      .error ("Invalid process substitution '" ++ process ++ "." ++ entry.1 ++ "': " ++ what)

def readSubstitutions (process : String) (node : Yaml) : Except String (List (String × String)) :=
  match node.find ["substitutions"] with
  | none => .ok []
  | some (.map entries) => do
    let bindings ← entries.mapM (readSubstitution convert process)
    return firstEntries bindings
  | some _ => .error ("Process substitutions must be a map: " ++ process)

/-- A round of the loop over the processes. -/
def readDefinition (name : String) (node : Yaml) : Except String Definition := do
  if !validProcessName name then
    throw ("Invalid process name: " ++ name)
  if !node.isMap then
    throw ("Process configuration must be a map: " ++ name)
  let command ← requiredValue convert convert.asText node "command" name
  let autoStart ← requiredValue convert convert.asFlag node "auto_start" name
  let sigintTimeoutSec ← requiredValue convert convert.asReal node "sigint_timeout_sec" name
  let sigtermTimeoutSec ← requiredValue convert convert.asReal node "sigterm_timeout_sec" name
  let workingDirectory ← readWorkingDirectory convert node
  let substitutions ← readSubstitutions convert name node
  if command = "" then
    throw ("Process command must not be empty: " ++ name)
  if sigintTimeoutSec.lt (.fin 0) || sigtermTimeoutSec.lt (.fin 0) then
    throw ("Process stop timeouts must not be negative: " ++ name)
  return {
    command, workingDirectory, substitutions, autoStart, sigintTimeoutSec, sigtermTimeoutSec }

/-- The definitions of a file, with the name of each. -/
def readDefinitions (path : String) (file : Except String Yaml) :
    Except String (List (String × Definition)) := do
  match file with
  | .error what => throw ("Unable to load process config '" ++ path ++ "': " ++ what)
  | .ok root =>
    let missing := "Process config must contain a non-empty 'processes' map"
    let processes ← convert.requiredMap missing root "processes"
    if processes.entries = [] then
      throw missing
    processes.entries.mapM fun entry ↦ do
      return (entry.1, ← readDefinition convert entry.1 entry.2)

/-- The table of the definitions of a file, of which the first of a name counts. -/
def configsOf (duration : Double → ℕ) (definitions : List (String × Definition)) :
    ProcessConfigs where
  names := ((firstEntries definitions).map Prod.fst).insertionSort (· ≤ ·)
  sorted := by
    have hsorted := List.pairwise_insertionSort (· ≤ ·) ((firstEntries definitions).map Prod.fst)
    have hnodup : (((firstEntries definitions).map Prod.fst).insertionSort (· ≤ ·)).Nodup :=
      (List.perm_insertionSort _ _).nodup_iff.mpr (nodup_firstEntries definitions)
    exact (hsorted.and hnodup).imp fun h ↦ lt_of_le_of_ne h.1 h.2
  config name := ((definitions.lookup name).map (Definition.config duration)).getD default

/-- What `loadConfig` reads before it takes the mutex. -/
def readConfigs (duration : Double → ℕ) (path : String) (file : Except String Yaml) :
    Except String ProcessConfigs :=
  (readDefinitions convert path file).map (configsOf duration)

/-! ## What a file defines -/

variable {convert}

/-- One binding of a definition, and the entry it is read from. -/
def Binds (convert : Conversions) (entry : String × Yaml) (binding : String × String) : Prop :=
  validSubstitutionName entry.1 = true ∧ binding.1 = entry.1 ∧
    convert.asText entry.2 = .ok binding.2

/-- A node that defines a process. -/
structure Defines (convert : Conversions) (name : String) (node : Yaml) (definition : Definition) :
    Prop where
  name : validProcessName name = true
  command : node.find ["command"] = some (.scalar definition.command)
  command_ne : definition.command ≠ ""
  autoStart : ∃ value, node.find ["auto_start"] = some value ∧
    convert.asFlag value = .ok definition.autoStart
  sigint : ∃ value, node.find ["sigint_timeout_sec"] = some value ∧
    convert.asReal value = .ok definition.sigintTimeoutSec
  sigterm : ∃ value, node.find ["sigterm_timeout_sec"] = some value ∧
    convert.asReal value = .ok definition.sigtermTimeoutSec
  notNegative : definition.sigintTimeoutSec.lt (.fin 0) = false ∧
    definition.sigtermTimeoutSec.lt (.fin 0) = false
  workingDirectory : node.find ["working_directory"] = none ∧ definition.workingDirectory = "" ∨
    ∃ value, node.find ["working_directory"] = some value ∧
      convert.asText value = .ok definition.workingDirectory
  substitutions : node.find ["substitutions"] = none ∧ definition.substitutions = [] ∨
    ∃ entries bindings, node.find ["substitutions"] = some (.map entries) ∧
      List.Forall₂ (Binds convert) entries bindings ∧
      definition.substitutions = firstEntries bindings

theorem readWorkingDirectory_eq_ok {node : Yaml} {directory : String} :
    readWorkingDirectory convert node = .ok directory ↔
      node.find ["working_directory"] = none ∧ directory = "" ∨
        ∃ value, node.find ["working_directory"] = some value ∧
          convert.asText value = .ok directory := by
  unfold readWorkingDirectory
  cases node.find ["working_directory"] with
  | none => simp [eq_comm]
  | some value => simp

theorem readSubstitution_eq_ok {process : String} {entry : String × Yaml}
    {binding : String × String} :
    readSubstitution convert process entry = .ok binding ↔ Binds convert entry binding := by
  unfold readSubstitution Binds
  cases hvalid : validSubstitutionName entry.1 with
  | false => simp
  | true =>
    cases hread : convert.asText entry.2 with
    | error what => simp
    | ok value => simp [Prod.ext_iff, eq_comm]

theorem readSubstitutions_eq_ok {process : String} {node : Yaml}
    {substitutions : List (String × String)} :
    readSubstitutions convert process node = .ok substitutions ↔
      node.find ["substitutions"] = none ∧ substitutions = [] ∨
        ∃ entries bindings, node.find ["substitutions"] = some (.map entries) ∧
          List.Forall₂ (Binds convert) entries bindings ∧
          substitutions = firstEntries bindings := by
  unfold readSubstitutions
  cases hfind : node.find ["substitutions"] with
  | none => simp [eq_comm]
  | some value =>
    cases value with
    | map entries =>
      simp only [bind_eq_ok, pure_eq_ok, mapM_eq_ok, readSubstitution_eq_ok]
      constructor
      · rintro ⟨bindings, hbindings, rfl⟩
        exact .inr ⟨entries, bindings, rfl, hbindings, rfl⟩
      · rintro (⟨hnone, -⟩ | ⟨_, bindings, ⟨⟩, hbindings, rfl⟩)
        · cases hnone
        · exact ⟨bindings, hbindings, rfl⟩
    | _ => simp

theorem readDefinition_eq_ok {name : String} {node : Yaml} {definition : Definition} :
    readDefinition convert name node = .ok definition ↔ Defines convert name node definition := by
  simp only [readDefinition, throw_or_eq_ok, bind_eq_ok, pure_eq_ok, requiredValue,
    Conversions.required_asText_eq_ok, Conversions.required_asReal_eq_ok,
    Conversions.required_asFlag_eq_ok, readWorkingDirectory_eq_ok, readSubstitutions_eq_ok,
    Bool.not_eq_true', Bool.not_eq_false, Bool.or_eq_true, not_or, Bool.not_eq_true]
  constructor
  · rintro ⟨hname, -, command, hcommand, autoStart, hauto, sigint, hsigint, sigterm, hsigterm,
      directory, hdirectory, substitutions, hsubstitutions, hempty, hnegative, rfl⟩
    exact ⟨hname, hcommand, hempty, hauto, hsigint, hsigterm, hnegative, hdirectory,
      hsubstitutions⟩
  · intro h
    exact ⟨h.name, isMap_of_find h.command, _, h.command, _, h.autoStart, _, h.sigint, _, h.sigterm,
      _, h.workingDirectory, _, h.substitutions, h.command_ne, h.notNegative, rfl⟩

/-- The definitions of a file, in its order. -/
def Lists (convert : Conversions) (entries : List (String × Yaml))
    (definitions : List (String × Definition)) : Prop :=
  List.Forall₂ (fun entry definition ↦ definition.1 = entry.1 ∧
    Defines convert entry.1 entry.2 definition.2) entries definitions

theorem readDefinitions_eq_ok {path : String} {file : Except String Yaml}
    {definitions : List (String × Definition)} :
    readDefinitions convert path file = .ok definitions ↔
      ∃ root entries, file = .ok root ∧ root.find ["processes"] = some (.map entries) ∧
        entries ≠ [] ∧ Lists convert entries definitions := by
  have hround (entry : String × Yaml) (definition : String × Definition) :
      (do return (entry.1, ← readDefinition convert entry.1 entry.2)) = .ok definition ↔
        definition.1 = entry.1 ∧ Defines convert entry.1 entry.2 definition.2 := by
    simp only [bind_eq_ok, pure_eq_ok, readDefinition_eq_ok]
    constructor
    · rintro ⟨_, hdefines, rfl⟩
      exact ⟨rfl, hdefines⟩
    · rintro ⟨hname, hdefines⟩
      exact ⟨_, hdefines, Prod.ext hname.symm rfl⟩
  cases file with
  | error what => exact iff_of_false nofun nofun
  | ok root =>
    simp only [readDefinitions, bind_eq_ok, Conversions.requiredMap_eq_ok, throw_or_eq_ok,
      mapM_eq_ok, hround]
    constructor
    · rintro ⟨node, ⟨hfind, hmap⟩, hsome, hlists⟩
      cases node with
      | map entries => exact ⟨root, entries, rfl, hfind, hsome, hlists⟩
      | _ => cases hmap
    · rintro ⟨_, entries, ⟨⟩, hfind, hsome, hlists⟩
      exact ⟨.map entries, ⟨hfind, rfl⟩, hsome, hlists⟩

/-- The first definition of a name comes from the first entry of the name. -/
theorem Lists.lookup {entries : List (String × Yaml)} {definitions : List (String × Definition)}
    (h : Lists convert entries definitions) (name : String) :
    (entries.lookup name = none ∧ definitions.lookup name = none) ∨
      ∃ node definition, entries.lookup name = some node ∧
        definitions.lookup name = some definition ∧ Defines convert name node definition := by
  induction h with
  | nil => exact .inl ⟨rfl, rfl⟩
  | @cons entry definition entries definitions hfirst _ ih =>
    obtain ⟨hname, hdefines⟩ := hfirst
    obtain ⟨key, definition⟩ := definition
    cases hname
    by_cases hsame : name = entry.1
    · subst hsame
      exact .inr ⟨entry.2, definition, List.lookup_cons_self, List.lookup_cons_self, hdefines⟩
    · rw [List.lookup_cons, List.lookup_cons, beq_eq_false_iff_ne.mpr hsame]
      exact ih

theorem mem_configsOf (duration : Double → ℕ) (definitions : List (String × Definition))
    (name : String) :
    name ∈ (configsOf duration definitions).names ↔ (definitions.lookup name).isSome = true := by
  have hnone : definitions.lookup name = none ↔
      name ∉ (firstEntries definitions).map Prod.fst := by
    rw [← lookup_firstEntries, List.lookup_eq_none_iff]
    constructor
    · intro h hmem
      obtain ⟨entry, hentry, rfl⟩ := List.mem_map.mp hmem
      simpa using h entry hentry
    · intro h entry hentry
      have hne : entry.1 ≠ name := fun hsame ↦ h (List.mem_map.mpr ⟨entry, hentry, hsame⟩)
      simpa using hne.symm
  rw [configsOf, List.mem_insertionSort, ← not_iff_not, ← hnone, Bool.not_eq_true,
    Option.isSome_eq_false_iff, Option.isNone_iff_eq_none]

/-- A file that can be read: it has processes, and defines every one of them. -/
def Acceptable (convert : Conversions) (file : Except String Yaml) : Prop :=
  ∃ root entries, file = .ok root ∧ root.find ["processes"] = some (.map entries) ∧ entries ≠ [] ∧
    ∀ entry ∈ entries, ∃ definition, Defines convert entry.1 entry.2 definition

theorem exists_lists {entries : List (String × Yaml)}
    (h : ∀ entry ∈ entries, ∃ definition, Defines convert entry.1 entry.2 definition) :
    ∃ definitions, Lists convert entries definitions := by
  induction entries with
  | nil => exact ⟨[], .nil⟩
  | cons entry entries ih =>
    obtain ⟨definition, hdefinition⟩ := h entry List.mem_cons_self
    obtain ⟨definitions, hdefinitions⟩ :=
      ih fun other hother ↦ h other (List.mem_cons_of_mem _ hother)
    exact ⟨(entry.1, definition) :: definitions, .cons ⟨rfl, hdefinition⟩ hdefinitions⟩

theorem Lists.defined {entries : List (String × Yaml)} {definitions : List (String × Definition)}
    (h : Lists convert entries definitions) :
    ∀ entry ∈ entries, ∃ definition, Defines convert entry.1 entry.2 definition := by
  induction h with
  | nil => exact nofun
  | @cons entry definition entries definitions hfirst _ ih =>
    exact List.forall_mem_cons.mpr ⟨⟨definition.2, hfirst.2⟩, ih⟩

theorem readConfigs_isOk (duration : Double → ℕ) (path : String) (file : Except String Yaml) :
    (readConfigs convert duration path file).isOk = true ↔ Acceptable convert file := by
  have hread : (readConfigs convert duration path file).isOk = true ↔
      ∃ definitions, readDefinitions convert path file = .ok definitions := by
    unfold readConfigs
    cases readDefinitions convert path file <;> simp [Except.map, Except.isOk, Except.toBool]
  rw [hread]
  constructor
  · rintro ⟨definitions, hdefinitions⟩
    obtain ⟨root, entries, hfile, hfind, hsome, hlists⟩ := readDefinitions_eq_ok.mp hdefinitions
    exact ⟨root, entries, hfile, hfind, hsome, hlists.defined⟩
  · rintro ⟨root, entries, hfile, hfind, hsome, hdefined⟩
    obtain ⟨definitions, hlists⟩ := exists_lists hdefined
    exact ⟨definitions, readDefinitions_eq_ok.mpr ⟨root, entries, hfile, hfind, hsome, hlists⟩⟩

theorem valid_of_binds {entries : List (String × Yaml)} {bindings : List (String × String)}
    (h : List.Forall₂ (Binds convert) entries bindings) :
    ∀ binding ∈ bindings, validSubstitutionName binding.1 = true := by
  induction h with
  | nil => exact nofun
  | cons hbinds _ ih => exact List.forall_mem_cons.mpr ⟨hbinds.2.1 ▸ hbinds.1, ih⟩

/-- The substitutions of a definition as the expansion of its command takes them. -/
def Defines.substitutionMap {name : String} {node : Yaml} {definition : Definition}
    (h : Defines convert name node definition) : SubstitutionMap where
  bindings := definition.substitutions
  nodup := by
    rcases h.substitutions with ⟨-, hnone⟩ | ⟨entries, bindings, -, -, hfirst⟩
    · rw [hnone]
      exact List.nodup_nil
    · rw [hfirst]
      exact nodup_firstEntries bindings
  valid := by
    rcases h.substitutions with ⟨-, hnone⟩ | ⟨entries, bindings, -, hbinds, hfirst⟩
    · rw [hnone]
      exact nofun
    · rw [hfirst]
      exact fun binding hmem ↦ valid_of_binds hbinds binding (mem_of_mem_firstEntries hmem)

/-! ## Runs -/

/-- A table that knows the processes of a file, each as the first entry of its name defines it. -/
structure DefinedBy (convert : Conversions) (duration : Double → ℕ) (entries : List (String × Yaml))
    (table : ProcessTable) : Prop where
  known : ∀ name, name ∈ table.names ↔ (entries.lookup name).isSome = true
  defined : ∀ name node, entries.lookup name = some node →
    ∃ definition, Defines convert name node definition ∧
      (table.record name).config = definition.config duration

theorem definedBy_of_readConfigs {duration : Double → ℕ} {path : String}
    {file : Except String Yaml} {configs : ProcessConfigs}
    (h : readConfigs convert duration path file = .ok configs) :
    ∃ root entries, file = .ok root ∧ root.find ["processes"] = some (.map entries) ∧
      entries ≠ [] ∧ DefinedBy convert duration entries configs.table := by
  unfold readConfigs at h
  cases hread : readDefinitions convert path file with
  | error what =>
    rw [hread] at h
    cases h
  | ok definitions =>
    rw [hread] at h
    cases h
    obtain ⟨root, entries, hfile, hfind, hsome, hlists⟩ := readDefinitions_eq_ok.mp hread
    refine ⟨root, entries, hfile, hfind, hsome, fun name ↦ ?_, fun name node hnode ↦ ?_⟩
    · refine (mem_configsOf duration definitions name).trans ?_
      rcases hlists.lookup name with ⟨hnone, hnone'⟩ | ⟨node, definition, hnode, hdefinition, -⟩
      · rw [hnone, hnone']
        rfl
      · rw [hnode, hdefinition]
        rfl
    · rcases hlists.lookup name with ⟨hnone, -⟩ | ⟨_, definition, hlookup, hdefinition, hdefines⟩
      · rw [hnone] at hnode
        cases hnode
      · rw [hlookup] at hnode
        cases hnode
        refine ⟨definition, hdefines, ?_⟩
        simp [ProcessConfigs.table, configsOf, hdefinition]

/-- The names of a table and their definitions are as before. -/
def SameDefinitions (s s' : Shared) : Prop :=
  s'.table.names = s.table.names ∧
    ∀ name, (s'.table.record name).config = (s.table.record name).config

theorem SameDefinitions.definedBy {s s' : Shared} (h : SameDefinitions s s')
    {duration : Double → ℕ} {entries : List (String × Yaml)}
    (hdefined : DefinedBy convert duration entries s.table) :
    DefinedBy convert duration entries s'.table where
  known name := by rw [h.1, hdefined.known]
  defined name node hnode := by
    rw [h.2]
    exact hdefined.defined name node hnode

theorem Refreshed.sameDefinitions {s s' : Shared} (h : Refreshed s s') : SameDefinitions s s' := by
  refine ⟨h.names, fun name ↦ ?_⟩
  obtain hsame | ⟨_, _, _, _, _, _, _, hrecord⟩ := h.record name
  · rw [hsame]
  · rw [hrecord]

theorem startProcess_sameDefinitions {s s' : Shared} (hsound : s.Sound) {name : String}
    {substitutions : Substitutions} {fault : Option WaitFault} {forked : ForkResult}
    {result : Except String Unit}
    (hstart : startProcess s name substitutions fault forked = some (s', result)) :
    SameDefinitions s s' := by
  obtain ⟨_, _, _, hrefreshed⟩ | ⟨middle, pid, kernel, _, _, _, _, hrefreshed, _, _, rfl⟩ :=
    hsound.startProcess_cases hstart
  · exact hrefreshed.sameDefinitions
  · obtain ⟨hnames, hconfig⟩ := hrefreshed.sameDefinitions
    refine ⟨hnames, fun other ↦ ?_⟩
    rw [ProcessTable.set_record, ← hconfig other]
    split_ifs with hsame
    · rw [hsame]
    · rfl

/-- Only a load changes the definitions. -/
theorem Sys.sameDefinitions_step {s s' : Sys} (hsound : s.shared.Sound) {a : Action}
    (hload : ∀ loaded faults, a ≠ .loadConfig loaded faults) (hstep : s.step a = some s') :
    SameDefinitions s.shared s'.shared := by
  have hkernel (kernel? : Option (Kernel String)) (hmap : kernel?.map s.setKernel = some s') :
      SameDefinitions s.shared s'.shared := by
    obtain ⟨kernel, -, rfl⟩ := Option.map_eq_some_iff.mp hmap
    exact ⟨rfl, fun _ ↦ rfl⟩
  cases a with
  | startProcess name substitutions choice =>
    obtain ⟨⟨shared, result⟩, hstart, rfl⟩ := Option.map_eq_some_iff.mp hstep
    exact startProcess_sameDefinitions hsound hstart
  | isProcessRunning name choice =>
    cases hstep
    exact (hsound.isProcessRunning_moves name choice.fault).2.sameDefinitions
  | lastExitCode name choice =>
    cases hstep
    exact (hsound.lastExitCode_moves name choice.fault).2.sameDefinitions
  | loadConfig loaded faults => exact absurd rfl (hload loaded faults)
  | monitorRound faults =>
    cases hstep
    exact (hsound.refreshAll_moves faults fun _ hname ↦ hname).2.sameDefinitions
  | stopProcess name | restartProcess name =>
    cases hstep
    exact ⟨rfl, fun _ ↦ rfl⟩
  | thread index choice =>
    simp only [Sys.step] at hstep
    cases hthread : s.threads[index]? with
    | none => simp [hthread] at hstep
    | some thread =>
      simp only [hthread] at hstep
      obtain ⟨⟨shared, point⟩, hnext, rfl⟩ := Option.map_eq_some_iff.mp hstep
      by_cases hstart : thread.point = .start
      · simp only [Thread.step, hstart] at hnext
        obtain ⟨⟨started, result⟩, hstarted, hresult⟩ := Option.map_eq_some_iff.mp hnext
        cases hresult
        exact startProcess_sameDefinitions hsound hstarted
      · exact (threadStep_refreshed hsound hnext hstart).sameDefinitions
  | childExits child status => exact hkernel _ hstep
  | memberStarts child pid => exact hkernel _ hstep
  | memberExits child pid => exact hkernel _ hstep
  | otherStarts pid => exact hkernel _ hstep
  | otherExits pid =>
    cases hstep
    exact ⟨rfl, fun _ ↦ rfl⟩
  | tick elapsed =>
    simp only [Sys.step] at hstep
    split_ifs at hstep
    cases hstep
    exact ⟨rfl, fun _ ↦ rfl⟩

/-- A step of the manager with the file that a load reads. -/
inductive FileAction where
  | load (path : String) (file : Except String Yaml) (faults : String → Option WaitFault)
  | other (a : Action)

def Action.loads : Action → Bool
  | .loadConfig _ _ => true
  | _ => false

/-- What is loaded has been read from a file. -/
def Sys.fileStep (convert : Conversions) (duration : Double → ℕ) (s : Sys) :
    FileAction → Option Sys
  | .load path file faults => s.step (.loadConfig (readConfigs convert duration path file) faults)
  | .other a => if a.loads then none else s.step a

/-- The root of the file that was accepted last. -/
def noteAccepted (convert : Conversions) (duration : Double → ℕ) (accepted : Option Yaml)
    (s : Sys) (a : FileAction) (_ : Sys) : Option Yaml :=
  match a with
  | .load path file faults =>
    match file, (loadConfig s.shared (readConfigs convert duration path file) faults).2 with
    | .ok root, .ok _ => some root
    | _, _ => accepted
  | .other _ => accepted

/-- A process manager whose loads read files, beside the root of the file it accepted last. -/
def Loads (convert : Conversions) (duration : Double → ℕ) : Sys × Option Yaml → Prop :=
  Reaches (noting (Sys.fileStep convert duration) (noteAccepted convert duration)) anyAction
    (fun s ↦ s.1.Initial ∧ s.2 = none)

/-- A manager that knows no process before it has accepted a file, and then those of the file it
accepted last. -/
def KnowsAccepted (convert : Conversions) (duration : Double → ℕ) (accepted : Option Yaml)
    (s : Shared) : Prop :=
  accepted = none ∧ s.table.names = [] ∨
    ∃ (root : Yaml) (entries : List (String × Yaml)), accepted = some root ∧
      root.find ["processes"] = some (.map entries) ∧ entries ≠ [] ∧
        DefinedBy convert duration entries s.table

theorem KnowsAccepted.same {duration : Double → ℕ} {accepted : Option Yaml} {s s' : Shared}
    (h : KnowsAccepted convert duration accepted s) (hsame : SameDefinitions s s') :
    KnowsAccepted convert duration accepted s' := by
  rcases h with ⟨hnone, hnames⟩ | ⟨root, entries, haccepted, hfind, hsome, hdefined⟩
  · exact .inl ⟨hnone, hsame.1.trans hnames⟩
  · exact .inr ⟨root, entries, haccepted, hfind, hsome, hsame.definedBy hdefined⟩

theorem KnowsAccepted.step {duration : Double → ℕ} {accepted : Option Yaml} {s s' : Sys}
    (hsound : s.shared.Sound) {a : FileAction}
    (h : KnowsAccepted convert duration accepted s.shared)
    (hstep : s.fileStep convert duration a = some s') :
    KnowsAccepted convert duration (noteAccepted convert duration accepted s a s') s'.shared := by
  cases a with
  | load path file faults =>
    have hload : s' = { s with shared :=
        (loadConfig s.shared (readConfigs convert duration path file) faults).1 } :=
      (Option.some.inj hstep).symm
    obtain ⟨what, hrefused, _, hrefreshed⟩ | ⟨configs, middle, hread, hloaded, _, _, _, hresult⟩ :=
      hsound.loadConfig_cases (readConfigs convert duration path file) faults
    · -- a load that is refused is not noted
      have hnoted : noteAccepted convert duration accepted s (.load path file faults) s' =
          accepted := by
        cases file <;> simp [noteAccepted, hrefused]
      rw [hnoted, hload]
      exact h.same hrefreshed.sameDefinitions
    · obtain ⟨root, entries, rfl, hfind, hsome, hdefined⟩ := definedBy_of_readConfigs hread
      refine .inr ⟨root, entries, ?_, hfind, hsome, ?_⟩
      · simp [noteAccepted, hloaded]
      · rw [hload, hresult]
        exact hdefined
  | other a =>
    simp only [Sys.fileStep, Option.ite_none_left_eq_some] at hstep
    obtain ⟨hloads, hstep⟩ := hstep
    refine h.same (Sys.sameDefinitions_step hsound ?_ hstep)
    rintro loaded faults rfl
    exact hloads rfl

/-- The runs with files are runs of the manager. -/
theorem Loads.reaches {duration : Double → ℕ} {s : Sys × Option Yaml}
    (h : Loads convert duration s) : Reaches Sys.step anyAction Sys.Initial s.1 := by
  refine h.invariant (P := fun s : Sys × Option Yaml ↦ Reaches Sys.step anyAction Sys.Initial s.1)
    (fun s hs ↦ .start hs.1) fun s a s' hs _ hstep ↦ ?_
  obtain ⟨hstep, -⟩ := noting_eq_some hstep
  cases a with
  | load path file faults =>
    exact hs.tail (a := .loadConfig (readConfigs convert duration path file) faults) trivial hstep
  | other a =>
    simp only [Sys.fileStep, Option.ite_none_left_eq_some] at hstep
    exact hs.tail trivial hstep.2

theorem Loads.knowsAccepted {duration : Double → ℕ} {s : Sys} {accepted : Option Yaml}
    (h : Loads convert duration (s, accepted)) :
    KnowsAccepted convert duration accepted s.shared := by
  refine Reaches.invariant_of
    (P := fun s : Sys × Option Yaml ↦ KnowsAccepted convert duration s.2 s.1.shared)
    (Q := fun s ↦ s.1.shared.Sound) (fun s hs ↦ Sys.sound_of_reaches (Loads.reaches hs))
    (fun s hs ↦ .inl ⟨hs.2, hs.1.names⟩) (fun s a s' hsound hs _ hstep ↦ ?_) h
  obtain ⟨hnext, hnote⟩ := noting_eq_some hstep
  rw [hnote]
  exact hs.step hsound hnext

/-- In every run the processes a manager knows are those of the file it accepted last, each as the
file defines it, with a map of substitutions that its command can be expanded with. -/
theorem definitions_of_one_file (duration : Double → ℕ) (s : Sys) (accepted : Option Yaml)
    (h : Loads convert duration (s, accepted)) :
    KnowsAccepted convert duration accepted s.shared ∧
      (∀ name, name ∈ s.shared.table.names → validProcessName name = true ∧
        ∃ defaults : SubstitutionMap,
          (s.shared.table.record name).config.substitutions = defaults.bindings) ∧
      ∀ path file, (readConfigs convert duration path file).isOk = true ↔
        Acceptable convert file := by
  have hknows := h.knowsAccepted
  refine ⟨hknows, fun name hname ↦ ?_, readConfigs_isOk duration⟩
  rcases hknows with ⟨-, hnone⟩ | ⟨root, entries, -, -, -, hdefined⟩
  · rw [hnone] at hname
    cases hname
  · obtain ⟨node, hnode⟩ := Option.isSome_iff_exists.mp ((hdefined.known name).mp hname)
    obtain ⟨definition, hdefines, hconfig⟩ := hdefined.defined name node hnode
    exact ⟨hdefines.name, hdefines.substitutionMap, by rw [hconfig]; rfl⟩

/-- Two of the processes of `process.yaml`. -/
def processesYaml : Yaml :=
  .map [("processes", .map [
    ("ouster", .map [("command", .scalar "ros2 launch sensor"), ("auto_start", .scalar "false"),
      ("sigint_timeout_sec", .scalar "5.0"), ("sigterm_timeout_sec", .scalar "2.0"),
      ("substitutions", .map [("sensor_hostname", .scalar "os")])]),
    ("mapping", .map [("command", .scalar "ros2 launch {map_path}"),
      ("auto_start", .scalar "false"), ("sigint_timeout_sec", .scalar "5.0"),
      ("sigterm_timeout_sec", .scalar "2.0")])])]

def processesConversions : Conversions where
  real text := [("5.0", .fin 5), ("2.0", .fin 2)].lookup text
  natural _ := none
  flag text := [("false", false), ("true", true)].lookup text
  badConversion _ := "bad conversion"
  badSubscript _ := "operator[] call on a scalar"

/-- The whole nanoseconds of a time, as far as it has some. -/
def nanoseconds : Double → ℕ
  | .fin seconds => (seconds * 10 ^ 9).floor.toNat
  | _ => 0

def loadProcesses : FileAction := .load "process.yaml" (.ok processesYaml) fun _ ↦ none

theorem definitions_of_one_file_loaded :
    ∃ s : Sys, s.shared.table.names = ["mapping", "ouster"] ∧
      KnowsAccepted processesConversions nanoseconds (some processesYaml) s.shared := by
  have hloaded : ∃ s, noting (Sys.fileStep processesConversions nanoseconds)
      (noteAccepted processesConversions nanoseconds) (constructed, none) loadProcesses =
        some (s, some processesYaml) ∧ s.shared.table.names = ["mapping", "ouster"] :=
    ⟨_, rfl, by decide +kernel⟩
  obtain ⟨s, hstep, hnames⟩ := hloaded
  have hstart : Loads processesConversions nanoseconds (constructed, none) :=
    .start ⟨constructed_initial, rfl⟩
  exact ⟨s, hnames, (definitions_of_one_file nanoseconds s _ (hstart.tail trivial hstep)).1⟩

end SlamSystemManager.ProcessManager

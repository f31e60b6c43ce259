import RDPBlocker.Program.ApplicationMutex
import RDPBlocker.Program.ConfigFile
import RDPBlocker.Program.FirewallCleanup

/-! `main`, up to the start of its threads. -/
namespace RDPBlocker
open Foundation
variable {B : Boost} {S : Spdlog} {T : Type*}

/-- `APPLICATION_EXIT_CODE`. -/
inductive ApplicationExitCode
  | success
  | failed
deriving DecidableEq, Repr

def ApplicationExitCode.value : ApplicationExitCode → ℤ
  | success => 0
  | failed => 10

/-- How a process ends by itself. -/
inductive ProcessEnd
  | exit (code : ℤ)
  /-- An exception that nothing catches, or the use of a null pointer. -/
  | terminate
deriving DecidableEq, Repr

/-- What `MapFileAndCheckSumW` returns and writes. -/
structure MapFileResult where
  status : ℕ
  headerChecksum : ℕ
  currentChecksum : ℕ
deriving DecidableEq, Repr

def checksumSuccess : ℕ := 0

/-- `check_pe_checksum` of the release build. -/
def checkPeChecksum (file : MapFileResult) : Bool :=
  if file.status ≠ checksumSuccess then false
  else if file.headerChecksum ≠ file.currentChecksum then false
  else true

def checkProgramFile (file : MapFileResult) : Except ProcessEnd Unit :=
  if checkPeChecksum file = false then .error (.exit ApplicationExitCode.failed.value)
  else .ok ()

/-- `created` is `false` where spdlog throws `spdlog_ex`. -/
def initializeGlobalLogger (created : Bool) : Except ProcessEnd Unit :=
  if created = false then .error (.exit ApplicationExitCode.failed.value) else .ok ()

/-- What `boost::program_options` finds on the command line. -/
structure VariablesMap where
  help : Bool := false
  version : Bool := false
  config : Option String := none
deriving DecidableEq, Repr

/-- `parsed` is `none` where Boost throws `program_options::error`. `readBinaryFile` gives the
text of a file that can be opened. -/
def praseArgv (Y : YamlCpp) (readBinaryFile : String → Option String)
    (parsed : Option VariablesMap) (g : LoadedConfig B S) :
    Except ProcessEnd (LoadedConfig B S) :=
  match parsed with
  | none => .error (.exit ApplicationExitCode.failed.value)
  | some varMap =>
    if varMap.help = true then .error (.exit ApplicationExitCode.success.value)
    else if varMap.version = true then .error (.exit ApplicationExitCode.success.value)
    else
      let filePath := varMap.config.getD "config.yaml"
      match Y.loadConfigFile (readBinaryFile filePath) g with
      | (.ok true, g) => .ok g
      | (.ok false, _) => .error (.exit ApplicationExitCode.failed.value)
      -- The handler is for `program_options::error` only.
      | (.error _, _) => .error .terminate

/-- The results of `CoInitializeEx` that are told apart. -/
inductive CoInitializeResult
  | sOk
  | sFalse
  | rpcEChangedMode
  | other
deriving DecidableEq, Repr

/-- The constructor of `SystemComInitialize`. -/
def systemComInitialize : CoInitializeResult → Except ProcessEnd Unit
  | .sOk | .sFalse | .rpcEChangedMode => .ok ()
  | .other => .error (.exit (-1))

/-- `NET_FW_PROFILE_TYPE2`. -/
inductive ProfileType
  | domain
  | privateNetwork
  | publicNetwork
deriving DecidableEq, Repr

/-- `getFirewallEnabled` is `none` where the call fails. The loop ends at the first profile that
is enabled. -/
def isFireWallEnabled (hr : ComResults) (getFirewallEnabled : ProfileType → Option Bool) : Bool :=
  if getFireWallPolicy hr = false then false
  else [ProfileType.domain, .privateNetwork, .publicNetwork].any fun bitmask =>
    match getFirewallEnabled bitmask with
    | some enabled => enabled
    | none => false

/-- What the calls of one process return. -/
structure MainCalls where
  file : MapFileResult := ⟨checksumSuccess, 0, 0⟩
  loggerCreated : Bool := true
  parsed : Option VariablesMap := some {}
  readBinaryFile : String → Option String := fun _ => none
  mutex : MutexCalls := {}
  coInitialize : CoInitializeResult := .sOk
  enabled : ComResults := allSucceed
  getFirewallEnabled : ProfileType → Option Bool := fun _ => some true
  cleanup : ComResults := allSucceed
  enum : EnumResults := {}
  enumerated : List FirewallRule := []

/-- What `main` does before it takes the mutex. -/
def prepare (Y : YamlCpp) (calls : MainCalls) (g : LoadedConfig B S) :
    Except ProcessEnd (LoadedConfig B S) := do
  checkProgramFile calls.file
  initializeGlobalLogger calls.loggerCreated
  praseArgv Y calls.readBinaryFile calls.parsed g

/-- What `main` asks of the system before it touches the rules. -/
def checkSystem (calls : MainCalls) : Except ProcessEnd Unit := do
  systemComInitialize calls.coInitialize
  if isFireWallEnabled calls.enabled calls.getFirewallEnabled = false then
    .error (.exit ApplicationExitCode.failed.value)
  else .ok ()

/-- What is left of the process, with the named object and the rules of the machine. -/
structure MainResult (B : Boost) (T : Type*) where
  outcome : Except ProcessEnd (System B T)
  mutex : ApplicationMutex
  object : HandleTable
  present : List FirewallRule

/-- The end of a process closes its handle. -/
def MainResult.ended (e : ProcessEnd) (appMutex : ApplicationMutex) (object : HandleTable)
    (present : List FirewallRule) : MainResult B T :=
  let (appMutex, object) := appMutex.destroy object
  ⟨.error e, appMutex, object, present⟩

def main (Y : YamlCpp) (mode : RemoveMode) (calls : MainCalls) (g : LoadedConfig B S) (now : T)
    (object : HandleTable) (present : List FirewallRule) : MainResult B T :=
  match prepare Y calls g with
  | .error e => .ended e {} object present
  | .ok g =>
    match ApplicationMutex.lock calls.mutex {} object with
    | (false, appMutex, object) =>
      .ended (.exit ApplicationExitCode.failed.value) appMutex object present
    | (true, appMutex, object) =>
      match checkSystem calls with
      | .error e => .ended e appMutex object present
      | .ok () =>
        match System.startUp mode calls.cleanup calls.enum calls.enumerated
            g.toApplicationConfig now present with
        | .error _ => .ended .terminate appMutex object present
        | .ok s => ⟨.ok s, appMutex, object, s.io.rules.present⟩

/-- The command line asks for the program and not for a text about it, and the file that it names
can be loaded. -/
def Configures (Y : YamlCpp) (calls : MainCalls) (g g' : LoadedConfig B S) : Prop :=
  ∃ varMap, calls.parsed = some varMap ∧ varMap.help = false ∧ varMap.version = false ∧
    Y.loadConfigFile (calls.readBinaryFile (varMap.config.getD "config.yaml")) g = (.ok true, g')

section Equations
variable {Y : YamlCpp} {calls : MainCalls} {g g' : LoadedConfig B S}

theorem checkProgramFile_eq_ok {file : MapFileResult} : checkProgramFile file = .ok () ↔
    file.status = checksumSuccess ∧ file.headerChecksum = file.currentChecksum := by
  unfold checkProgramFile checkPeChecksum
  by_cases hstatus : file.status = checksumSuccess
  · by_cases hsum : file.headerChecksum = file.currentChecksum <;> simp [hstatus, hsum]
  · simp [hstatus]

theorem initializeGlobalLogger_eq_ok {created : Bool} :
    initializeGlobalLogger created = .ok () ↔ created = true := by
  cases created <;> simp [initializeGlobalLogger]

theorem praseArgv_eq_ok :
    praseArgv Y calls.readBinaryFile calls.parsed g = .ok g' ↔ Configures Y calls g g' := by
  unfold praseArgv Configures
  cases calls.parsed with
  | none => simp
  | some varMap =>
    dsimp only
    cases hhelp : varMap.help with
    | true => simp [hhelp]
    | false =>
      cases hversion : varMap.version with
      | true => simp [hversion]
      | false =>
        simp only [Bool.false_eq_true, if_false, Option.some.injEq, exists_eq_left', hhelp,
          hversion, true_and]
        rcases Y.loadConfigFile (calls.readBinaryFile (varMap.config.getD "config.yaml")) g with
          ⟨(err | (_ | _)), loaded⟩ <;> simp

theorem prepare_eq_ok : prepare Y calls g = .ok g' ↔
    (calls.file.status = checksumSuccess ∧
        calls.file.headerChecksum = calls.file.currentChecksum) ∧
      calls.loggerCreated = true ∧ Configures Y calls g g' := by
  rw [← checkProgramFile_eq_ok, ← initializeGlobalLogger_eq_ok, ← praseArgv_eq_ok]
  unfold prepare
  rcases checkProgramFile calls.file with e | ⟨⟩
  · simp [bind, Except.bind]
  · rcases initializeGlobalLogger calls.loggerCreated with e | ⟨⟩ <;> simp [bind, Except.bind]

theorem isFireWallEnabled_iff {hr : ComResults} {getFirewallEnabled : ProfileType → Option Bool} :
    isFireWallEnabled hr getFirewallEnabled = true ↔
      hr .createPolicy = true ∧ ∃ profile, getFirewallEnabled profile = some true := by
  unfold isFireWallEnabled getFireWallPolicy
  cases hpolicy : hr .createPolicy with
  | false => simp
  | true =>
    have hmem : ∀ profile : ProfileType,
        profile ∈ [ProfileType.domain, .privateNetwork, .publicNetwork] := by
      intro profile
      cases profile <;> decide
    have hget : ∀ profile, (match getFirewallEnabled profile with
        | some enabled => enabled
        | none => false) = true ↔ getFirewallEnabled profile = some true := by
      intro profile
      cases getFirewallEnabled profile <;> simp
    simp only [Bool.true_eq_false, if_false, List.any_eq_true, hmem, true_and, hget]

theorem checkSystem_eq_ok : checkSystem calls = .ok () ↔ calls.coInitialize ≠ .other ∧
    calls.enabled .createPolicy = true ∧
      ∃ profile, calls.getFirewallEnabled profile = some true := by
  rw [← isFireWallEnabled_iff]
  unfold checkSystem systemComInitialize
  cases calls.coInitialize with
  | other => simp [bind, Except.bind]
  | _ =>
    cases isFireWallEnabled calls.enabled calls.getFirewallEnabled <;> simp [bind, Except.bind]

end Equations
end RDPBlocker

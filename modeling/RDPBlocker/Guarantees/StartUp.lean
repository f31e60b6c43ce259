import RDPBlocker.Program.Main

/-! What a start of the program needs, and what it leaves behind when it is refused. -/
namespace RDPBlocker
open Foundation
variable {B : Boost} {S : Spdlog} {T : Type*} {Y : YamlCpp} {mode : RemoveMode}
  {calls : MainCalls} {g g' : LoadedConfig B S} {now : T} {object : HandleTable}
  {present : List FirewallRule}

/-- Nothing stands in the way of a start with the configuration `g'`. -/
structure Permitted (Y : YamlCpp) (calls : MainCalls) (g : LoadedConfig B S)
    (object : HandleTable) (g' : LoadedConfig B S) : Prop where
  file : calls.file.status = checksumSuccess ∧
    calls.file.headerChecksum = calls.file.currentChecksum
  logger : calls.loggerCreated = true
  configures : Configures Y calls g g'
  alone : object.opened = ∅
  mutex : calls.mutex.openFails = false ∧ calls.mutex.createFails = false
  com : calls.coInitialize ≠ .other
  firewall : calls.enabled .createPolicy = true ∧
    ∃ profile, calls.getFirewallEnabled profile = some true
  expression : B.regexAccepts g'.mRulePrefix = true
  /-- No search of the cleaning throws. -/
  searches : calls.enum.opens calls.cleanup = true → ∀ rule ∈ calls.enumerated.zipIdx,
    calls.enum.reads rule.2 = true →
      ∃ found, B.regexSearch g'.mRulePrefix rule.1.name = some found

/-- The command line asks for a text about the program. -/
def AsksForText (calls : MainCalls) : Prop :=
  (calls.file.status = checksumSuccess ∧
      calls.file.headerChecksum = calls.file.currentChecksum) ∧
    calls.loggerCreated = true ∧
    ∃ varMap, calls.parsed = some varMap ∧ (varMap.help = true ∨ varMap.version = true)

/-- The process has ended, and the machine is as it was before. -/
structure NoTrace (calls : MainCalls) (object : HandleTable) (present : List FirewallRule)
    (result : MainResult B T) : Prop where
  ended : ∃ e, result.outcome = .error e ∧
    (e = .exit ApplicationExitCode.success.value ↔ AsksForText calls)
  rules : result.present = present
  handles : result.object.opened = object.opened
  released : result.mutex.mHandle = none

theorem praseArgv_eq_error {e : ProcessEnd}
    (h : praseArgv Y calls.readBinaryFile calls.parsed g = .error e) :
    e = .exit ApplicationExitCode.success.value ↔
      ∃ varMap, calls.parsed = some varMap ∧ (varMap.help = true ∨ varMap.version = true) := by
  unfold praseArgv at h
  cases hparsed : calls.parsed with
  | none =>
    rw [hparsed] at h
    cases h
    simp [ApplicationExitCode.value]
  | some varMap =>
    rw [hparsed] at h
    dsimp only at h
    split_ifs at h with hhelp hversion
    · cases h
      simp [hhelp]
    · cases h
      simp [hversion]
    · rcases hload : Y.loadConfigFile
        (calls.readBinaryFile (varMap.config.getD "config.yaml")) g with
          ⟨(err | (_ | _)), loaded⟩ <;> rw [hload] at h <;> cases h
      · simp [hhelp, hversion]
      · simp [hhelp, hversion, ApplicationExitCode.value]

theorem prepare_eq_error {e : ProcessEnd} (h : prepare Y calls g = .error e) :
    e = .exit ApplicationExitCode.success.value ↔ AsksForText calls := by
  unfold prepare at h
  unfold AsksForText
  rw [← checkProgramFile_eq_ok, ← initializeGlobalLogger_eq_ok]
  cases hfile : checkProgramFile calls.file with
  | error e' =>
    have he : e' = .exit ApplicationExitCode.failed.value := by
      unfold checkProgramFile at hfile
      split_ifs at hfile
      exact (Except.error.inj hfile).symm
    rw [hfile] at h
    cases h
    simp [he, ApplicationExitCode.value]
  | ok =>
    rw [hfile] at h
    cases hlogger : initializeGlobalLogger calls.loggerCreated with
    | error e' =>
      have he : e' = .exit ApplicationExitCode.failed.value := by
        unfold initializeGlobalLogger at hlogger
        split_ifs at hlogger
        exact (Except.error.inj hlogger).symm
      rw [hlogger] at h
      cases h
      simp [he, ApplicationExitCode.value]
    | ok =>
      rw [hlogger] at h
      have hargv : praseArgv Y calls.readBinaryFile calls.parsed g = .error e := h
      rw [praseArgv_eq_error hargv, and_iff_right rfl, and_iff_right rfl]

theorem not_asksForText (h : prepare Y calls g = .ok g') : ¬ AsksForText calls := by
  rintro ⟨-, -, varMap, hparsed, hasks⟩
  obtain ⟨-, -, varMap', hparsed', hhelp, hversion, -⟩ := prepare_eq_ok.mp h
  cases hparsed.symm.trans hparsed'
  rcases hasks with hasks | hasks
  · exact absurd (hasks.symm.trans hhelp) (by decide)
  · exact absurd (hasks.symm.trans hversion) (by decide)

/-- The end of a process whose `lock` has not changed the object, or has opened a handle to it. -/
theorem noTrace_ended {e : ProcessEnd} {appMutex : ApplicationMutex} {object' : HandleTable}
    (he : e = .exit ApplicationExitCode.success.value ↔ AsksForText calls)
    (heffect : HandleTable.Effect object none appMutex.mHandle object') :
    NoTrace calls object present
      (MainResult.ended e appMutex object' present : MainResult B T) := by
  refine ⟨⟨e, rfl, he⟩, rfl, ?_, ApplicationMutex.close_handle _ _⟩
  change (appMutex.close object').2.opened = object.opened
  unfold ApplicationMutex.close
  cases hm : appMutex.mHandle with
  | none =>
    rw [hm] at heffect
    cases heffect with
    | keep => rfl
    | close h hslot => cases hslot
  | some handle =>
    rw [hm] at heffect
    cases heffect with
    | alloc _ => exact Finset.erase_insert object.next_not_mem

/-- Only an absent object leads to a lock. -/
theorem lock_new_eq_true {appMutex : ApplicationMutex} {object' : HandleTable}
    (h : ApplicationMutex.lock calls.mutex {} object = (true, appMutex, object')) :
    object.opened = ∅ ∧ calls.mutex.openFails = false ∧ calls.mutex.createFails = false ∧
      appMutex = ⟨some object.next⟩ ∧ object' = object.alloc := by
  cases hopen : calls.mutex.openFails with
  | true =>
    rw [ApplicationMutex.lock_of_fails rfl hopen] at h
    cases h
  | false =>
    by_cases hempty : object.opened = ∅
    · rw [ApplicationMutex.lock_of_absent rfl hopen hempty] at h
      cases hcreate : calls.mutex.createFails with
      | true =>
        rw [ApplicationMutex.create_of_fails rfl hcreate] at h
        cases h
      | false =>
        rw [ApplicationMutex.create_of_succeeds hcreate] at h
        cases h
        exact ⟨hempty, rfl, rfl, rfl, rfl⟩
    · rw [ApplicationMutex.lock_of_exists rfl hopen hempty] at h
      cases h

theorem checkSystem_error_ne {e : ProcessEnd} (h : checkSystem calls = .error e) :
    e ≠ .exit ApplicationExitCode.success.value := by
  intro he
  rw [he] at h
  unfold checkSystem systemComInitialize at h
  cases hcom : calls.coInitialize <;> rw [hcom] at h
  case other => cases h
  all_goals
    change (if _ then _ else _) = _ at h
    split_ifs at h
    cases h

theorem startUp_of_deleteRulesByRegex {ok : Bool} {rules : FirewallRules}
    (h : deleteRulesByRegex B mode calls.cleanup calls.enum calls.enumerated g'.mRulePrefix
      ⟨present, []⟩ = .ok (ok, rules)) (now : T) :
    System.startUp mode calls.cleanup calls.enum calls.enumerated g'.toApplicationConfig now
      present = .ok (System.start g'.toApplicationConfig now rules.present) := by
  unfold System.startUp
  rw [h]

theorem main_of_permitted (h : Permitted Y calls g object g') (mode : RemoveMode) (now : T)
    (present : List FirewallRule) : ∃ ok rules,
      deleteRulesByRegex B mode calls.cleanup calls.enum calls.enumerated g'.mRulePrefix
          ⟨present, []⟩ = .ok (ok, rules) ∧
        main Y mode calls g now object present =
          ⟨.ok (System.start g'.toApplicationConfig now rules.present), ⟨some object.next⟩,
            object.alloc, rules.present⟩ := by
  have hdelete : ∃ ok rules, deleteRulesByRegex B mode calls.cleanup calls.enum calls.enumerated
      g'.mRulePrefix ⟨present, []⟩ = .ok (ok, rules) :=
    deleteRulesByRegex_returns_iff.mpr ⟨h.expression, h.searches⟩
  obtain ⟨ok, rules, hdelete⟩ := hdelete
  have hstart := startUp_of_deleteRulesByRegex hdelete now
  refine ⟨ok, rules, hdelete, ?_⟩
  have hprepare : prepare Y calls g = .ok g' := prepare_eq_ok.mpr ⟨h.file, h.logger, h.configures⟩
  have hlock := ApplicationMutex.lock_of_absent (m := {}) rfl h.mutex.1 h.alone
  rw [ApplicationMutex.create_of_succeeds h.mutex.2] at hlock
  have hcheck : checkSystem calls = .ok () := checkSystem_eq_ok.mpr ⟨h.com, h.firewall⟩
  unfold main
  rw [hprepare]
  dsimp only
  rw [hlock]
  dsimp only
  rw [hcheck]
  dsimp only
  rw [hstart]
  rfl

theorem noTrace_of_not_permitted (h : ¬ ∃ g', Permitted Y calls g object g') (mode : RemoveMode)
    (now : T) (present : List FirewallRule) :
    NoTrace calls object present (main Y mode calls g now object present) := by
  unfold main
  cases hprepare : prepare Y calls g with
  | error e => exact noTrace_ended (prepare_eq_error hprepare) HandleTable.Effect.keep
  | ok g' =>
    have hfailed : ∀ {e : ProcessEnd}, e ≠ .exit ApplicationExitCode.success.value →
        (e = .exit ApplicationExitCode.success.value ↔ AsksForText calls) :=
      fun hne => iff_of_false hne (not_asksForText hprepare)
    have heffect := ApplicationMutex.lock_effect calls.mutex {} object
    rcases hlock : ApplicationMutex.lock calls.mutex {} object with ⟨locked, appMutex, object'⟩
    rw [hlock] at heffect
    cases locked with
    | false => exact noTrace_ended (hfailed (by decide)) heffect
    | true =>
      obtain ⟨halone, hopen, hcreate, -, -⟩ := lock_new_eq_true hlock
      dsimp only
      cases hcheck : checkSystem calls with
      | error e => exact noTrace_ended (hfailed (checkSystem_error_ne hcheck)) heffect
      | ok =>
        obtain ⟨hcom, hfirewall⟩ := checkSystem_eq_ok.mp hcheck
        obtain ⟨hfile, hlogger, hconfigures⟩ := prepare_eq_ok.mp hprepare
        have hthrows : ∃ err, deleteRulesByRegex B mode calls.cleanup calls.enum calls.enumerated
            g'.mRulePrefix ⟨present, []⟩ = .error err := by
          cases hdelete : deleteRulesByRegex B mode calls.cleanup calls.enum calls.enumerated
              g'.mRulePrefix ⟨present, []⟩ with
          | error err => exact ⟨err, rfl⟩
          | ok result =>
            obtain ⟨hexpression, hsearches⟩ :=
              deleteRulesByRegex_returns_iff.mp ⟨result.1, result.2, hdelete⟩
            exact absurd ⟨g', hfile, hlogger, hconfigures, halone, ⟨hopen, hcreate⟩, hcom,
              hfirewall, hexpression, hsearches⟩ h
        obtain ⟨err, hdelete⟩ := hthrows
        dsimp only
        unfold System.startUp
        rw [hdelete]
        exact noTrace_ended (hfailed (by decide)) heffect

/-- Either the start is permitted, and the threads run on the cleaned rules while the process holds
the mutex; or it is not, and the process ends without a trace, with the exit code of success only
when it was asked for a text. -/
theorem main_starts_or_leaves_no_trace (Y : YamlCpp) (mode : RemoveMode) (calls : MainCalls)
    (g : LoadedConfig B S) (now : T) (object : HandleTable) (present : List FirewallRule) :
    (∃ g' ok rules, Permitted Y calls g object g' ∧
        deleteRulesByRegex B mode calls.cleanup calls.enum calls.enumerated g'.mRulePrefix
          ⟨present, []⟩ = .ok (ok, rules) ∧
        main Y mode calls g now object present =
          ⟨.ok (System.start g'.toApplicationConfig now rules.present), ⟨some object.next⟩,
            object.alloc, rules.present⟩) ∨
      (¬ ∃ g', Permitted Y calls g object g') ∧
        NoTrace calls object present (main Y mode calls g now object present) := by
  by_cases h : ∃ g', Permitted Y calls g object g'
  · obtain ⟨g', hg'⟩ := h
    obtain ⟨ok, rules, hdelete, hmain⟩ := main_of_permitted hg' mode now present
    exact Or.inl ⟨g', ok, rules, hg', hdelete, hmain⟩
  · exact Or.inr ⟨h, noTrace_of_not_permitted h mode now present⟩

end RDPBlocker

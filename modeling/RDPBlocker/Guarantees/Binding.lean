import Mathlib.Data.Finset.Lattice.Fold
import RDPBlocker.Guarantees.LoginPolicy

/-! Auto-binding stores the name of a workstation as it came, and reads it back as an
expression. When that is harmless, and what the bound user sees of it. -/
namespace RDPBlocker
open Foundation Spec
variable {B : Boost} {g : ApplicationConfig B}

/-- Every value of the bind table is an expression. -/
def TableAccepted (c : ApplicationConfig B) : Prop :=
  ∀ user e, c.mWorkstationNameConfig.mBindTable.lookup user = some e → B.regexAccepts e = true

theorem firstWorkstation_of_isPrefix {past events : List AuthSucceedInput} (h : past <+: events)
    {user workstation : String} (hw : firstWorkstation g past user = some workstation) :
    firstWorkstation g events user = some workstation := by
  obtain ⟨later, rfl⟩ := h
  rw [← firstBinding_logins] at hw ⊢
  unfold logins at hw ⊢
  rw [List.map_append, LoginPolicy.firstBinding_append, hw, Option.some_or]

/-- Every workstation name that the run binds is an expression itself. -/
def BindingsAccepted (g : ApplicationConfig B) (events : List AuthSucceedInput) : Prop :=
  ∀ user workstation, g.mWorkstationNameConfig.mBindTable.lookup user = none →
    firstWorkstation g events user = some workstation → B.regexAccepts workstation = true

theorem BindingsAccepted.of_isPrefix {past events : List AuthSucceedInput}
    (hb : BindingsAccepted g events) (h : past <+: events) : BindingsAccepted g past :=
  fun user workstation hnone hw => hb user workstation hnone (firstWorkstation_of_isPrefix h hw)

/-- The expressions of the records are configured ones and names of bound workstations. -/
theorem BindingsAccepted.accepts_record (hconf : TableAccepted g) {events : List AuthSucceedInput}
    (hb : BindingsAccepted g events) {user e : String}
    (he : documentedRecord g events user = some e) : B.regexAccepts e = true := by
  unfold documentedRecord at he
  cases hl : g.mWorkstationNameConfig.mBindTable.lookup user with
  | some configured =>
    rw [hl] at he
    cases he
    exact hconf user e hl
  | none =>
    rw [hl] at he
    exact hb user e hl he

/-- The record of every login of the run is an expression. -/
theorem BindingsAccepted.recordsAccepted (hconf : TableAccepted g) {events : List AuthSucceedInput}
    (hb : BindingsAccepted g events) :
    AtEach (fun past i => RecordAccepted g (logins past) i) events := by
  intro past i later hsplit _ e he
  have hprefix : past ++ [i] <+: events := by
    rw [hsplit, List.append_cons past i later]
    exact List.prefix_append _ _
  rw [← logins_snoc, record_logins] at he
  exact (hb.of_isPrefix hprefix).accepts_record hconf he

/-- No search of the run gets too complex. -/
def NeverTooComplex (g : ApplicationConfig B) (events : List AuthSucceedInput) : Prop :=
  AtEach (fun past i => SearchesReturn g (logins past) i) events

/-- The thread survives, on a table of expressions only, exactly when every workstation name
that the run binds is itself an expression, and no search of the run gets too complex. -/
theorem survives_iff_bindings_accepted (hconf : TableAccepted g) (events : List AuthSucceedInput) :
    (∀ past, past <+: events → (authSucceedState g past).alive = true ∧
        TableAccepted (authSucceedState g past).gConfig) ↔
      BindingsAccepted g events ∧ NeverTooComplex g events := by
  constructor
  · intro h
    obtain ⟨halive, htable⟩ := h events List.prefix_rfl
    constructor
    · intro user workstation hnone hfirst
      apply htable user
      rw [lookup_bindTable halive, documentedRecord, hnone]
      exact hfirst
    · exact (alive_authSucceedState_iff.mp halive).imp fun _ _ => And.right
  · intro h past hprefix
    obtain ⟨hb, hsearch⟩ := h
    have hpast := hb.of_isPrefix hprefix
    have halive : (authSucceedState g past).alive = true := by
      rw [alive_authSucceedState_iff]
      exact atEach_and.mpr ⟨hpast.recordsAccepted hconf, hsearch.of_isPrefix hprefix⟩
    refine ⟨halive, fun user e he => ?_⟩
    rw [lookup_bindTable halive] at he
    exact hpast.accepts_record hconf he

theorem tableAccepted_plain : TableAccepted ({} : ApplicationConfig Boost.plain) := by
  intro user e he
  cases he

/-- One user is bound by the configuration. -/
def daveBound : ApplicationConfig Boost.plain where
  mWorkstationNameConfig := { mBindTable := AList.singleton "dave" "PC9" }

/-- Two users are bound by their first logins. The third one is not bound to the bracket. -/
def severalUsers : List AuthSucceedInput :=
  [loginOf "alice" "PC1" "1.2.3.4", loginOf "dave" "[" "1.2.3.5", loginOf "bob" "PC2" "1.2.3.6",
    loginOf "alice" "(" "1.2.3.7", loginOf "dave" "PC9" "1.2.3.5"]

theorem lookup_daveBound {user e : String}
    (h : daveBound.mWorkstationNameConfig.mBindTable.lookup user = some e) : e = "PC9" := by
  by_cases hdave : user = "dave"
  · rw [hdave] at h
    exact (Option.some.inj h).symm
  · have hmem := AList.lookup_isSome.mp (Option.isSome_of_eq_some h)
    exact absurd (List.mem_singleton.mp hmem) hdave

theorem tableAccepted_daveBound : TableAccepted daveBound := by
  intro user e he
  rw [lookup_daveBound he]
  decide

theorem bindingsAccepted_severalUsers : BindingsAccepted daveBound severalUsers := by
  intro user workstation hnone hfirst
  have hfind : (severalUsers.find? fun i => decide (BindsUser daveBound user i)).map
      (·.workstationName) = some workstation := hfirst
  obtain ⟨i, hi, -⟩ := Option.map_eq_some_iff.mp hfind
  have hbinds : BindsUser daveBound user i := by simpa using List.find?_some hi
  have husers : ∀ i ∈ severalUsers, i.userName = "alice" ∨ i.userName = "bob" ∨
      i.userName = "dave" := by decide
  have huser := husers i (List.mem_of_find?_eq_some hi)
  rw [hbinds.1] at huser
  rcases huser with rfl | rfl | rfl
  · have hworkstation : workstation = "PC1" := (Option.some.inj hfirst).symm
    rw [hworkstation]
    decide
  · have hworkstation : workstation = "PC2" := (Option.some.inj hfirst).symm
    rw [hworkstation]
    decide
  · cases hnone

theorem survives_iff_bindings_accepted_severalUsers :
    (BindingsAccepted daveBound severalUsers ∧ NeverTooComplex daveBound severalUsers) ∧
      ∀ past, past <+: severalUsers → (authSucceedState daveBound past).alive = true ∧
        TableAccepted (authSucceedState daveBound past).gConfig := by
  have hcondition : BindingsAccepted daveBound severalUsers ∧
      NeverTooComplex daveBound severalUsers :=
    ⟨bindingsAccepted_severalUsers,
      fun past i _ _ => searchesReturn_of_total (fun _ _ => ⟨_, rfl⟩) (logins past) i⟩
  exact ⟨hcondition,
    (survives_iff_bindings_accepted tableAccepted_daveBound severalUsers).mpr hcondition⟩

/-- A login from a workstation named by an unclosed bracket ends the process. -/
theorem unclosed_bracket_ends_process :
    TableAccepted ({} : ApplicationConfig Boost.plain) ∧
      (authSucceedState ({} : ApplicationConfig Boost.plain)
        [loginOf "alice" "[" "1.2.3.4"]).alive = false ∧
      ¬ TableAccepted (authSucceedState ({} : ApplicationConfig Boost.plain)
        [loginOf "alice" "[" "1.2.3.4"]).gConfig := by
  refine ⟨tableAccepted_plain, by decide, fun h => ?_⟩
  exact absurd (h "alice" "[" (by decide)) (by decide)

/-- A login of the user from the workstation that could lead to a block task. -/
structure LoginFrom (g : ApplicationConfig B) (user workstation : String) (i : AuthSucceedInput) :
    Prop where
  logonType : i.logonType = "3"
  userName : i.userName = user
  workstationName : i.workstationName = workstation
  valid : isVaildIpAddress B i.ipAddress = true
  notWhite : g.mIpConfig.isWhiteAddress i.ipAddress = .ok false
  drawn : 0 < g.mBlock.blockTime i.randomDelay

/-- The event is processed to its end and creates no block task. -/
def LetsThrough (g : ApplicationConfig B) (past : List AuthSucceedInput) (i : AuthSucceedInput) :
    Prop :=
  (authSucceedState g (past ++ [i])).alive = true ∧ ¬ CreatesTask g past i

/-- The name is in neither list. -/
def Unlisted (g : ApplicationConfig B) (workstation : String) : Prop :=
  workstation ∉ g.mWorkstationNameConfig.mWhitelist ∧
    workstation ∉ g.mWorkstationNameConfig.mBlocklist

/-- The first login is let through, and from then on those of the user from the same workstation
and no others. -/
def BindsExactly (g : ApplicationConfig B) (user workstation : String) (first : AuthSucceedInput) :
    Prop :=
  LetsThrough g [] first ∧ ∀ later i other, (authSucceedState g (first :: later)).alive = true →
    LoginFrom g user other i → Unlisted g other →
      (LetsThrough g (first :: later) i ↔ other = workstation)

namespace LoginFrom
variable {user workstation : String} {i : AuthSucceedInput}

theorem checks (hi : LoginFrom g user workstation i) (hu : Unlisted g workstation)
    (hcheck : g.mWorkstationNameConfig.mCheckBind = true) : (loginPolicy g).Checks i.login := by
  refine ⟨relevant_login.mpr ⟨hi.logonType, ne_of_isVaildIpAddress hi.valid⟩, ?_, ?_, hcheck⟩
  · apply decide_eq_false
    rw [← hi.workstationName] at hu
    exact hu.1
  · apply decide_eq_false
    rw [← hi.workstationName] at hu
    exact hu.2

/-- A login is let through when its record is an expression that matches the name. -/
theorem letsThrough_iff (hi : LoginFrom g user workstation i) (hu : Unlisted g workstation)
    (hcheck : g.mWorkstationNameConfig.mCheckBind = true) {past : List AuthSucceedInput}
    (halive : (authSucceedState g past).alive = true) {e : String}
    (he : documentedRecord g (past ++ [i]) user = some e) :
    LetsThrough g past i ↔ B.regexAccepts e = true ∧ B.regexSearch e workstation = some true := by
  have hchecks := hi.checks hu hcheck
  have hrec : (loginPolicy g).record (logins (past ++ [i])) i.userName = some e := by
    rw [record_logins, hi.userName, he]
  have hsome : rejection g i = .ok (some ⟨i.ipAddress, g.mBlock.blockTime i.randomDelay⟩) :=
    rejection_eq_some.mpr ⟨hi.valid, hi.notWhite, rfl⟩
  have hd : decision g (logins past) i = decisionOn g i (some e) := by
    unfold decision
    rw [if_pos hchecks, ← logins_snoc, hrec]
  have halive' : (authSucceedState g (past ++ [i])).alive = (decisionOn g i (some e)).isOk := by
    rw [authSucceedState_snoc, ((records_authSucceedState halive).step halive i).2.1, hd]
  unfold LetsThrough CreatesTask
  rw [halive', request_of_alive halive, hd, ← regexIsMatchString_eq_ok]
  unfold decisionOn
  dsimp only
  rw [hi.workstationName]
  rcases regexIsMatchString B e workstation with err | _ | _
  · exact iff_of_false (fun h => Bool.false_ne_true h.1) (by simp)
  · rw [hsome]
    exact iff_of_false (fun h => h.2 ⟨_, rfl, hi.drawn⟩) (by simp)
  · refine iff_of_true ⟨rfl, ?_⟩ rfl
    rintro ⟨request, hr, -⟩
    cases hr

end LoginFrom

/-- The same event, but for the workstation name. -/
def AuthSucceedInput.fromWorkstation (i : AuthSucceedInput) (workstation : String) :
    AuthSucceedInput :=
  { i with eventAttr := i.eventAttr.insert "WorkstationName" workstation }

theorem LoginFrom.fromWorkstation {user workstation : String} {i : AuthSucceedInput}
    (hi : LoginFrom g user workstation i) (other : String) :
    LoginFrom g user other (i.fromWorkstation other) := by
  have hget : ∀ key, key ≠ "WorkstationName" →
      (i.fromWorkstation other).eventAttr.get key = i.eventAttr.get key := by
    intro key hkey
    unfold AuthSucceedInput.fromWorkstation EventAttr.get
    rw [AList.lookup_insert_ne hkey]
  have hip : (i.fromWorkstation other).ipAddress = i.ipAddress := hget _ (by decide)
  constructor
  · exact (hget _ (by decide)).trans hi.logonType
  · exact (hget _ (by decide)).trans hi.userName
  · unfold AuthSucceedInput.workstationName EventAttr.get AuthSucceedInput.fromWorkstation
    rw [AList.lookup_insert]
    rfl
  · rw [hip]
    exact hi.valid
  · rw [hip]
    exact hi.notWhite
  · exact hi.drawn

/-- The first login of a user without a record writes it. -/
theorem LoginFrom.documentedRecord_eq {user workstation : String} {first : AuthSucceedInput}
    (hfirst : LoginFrom g user workstation first) (hu : Unlisted g workstation)
    (hcheck : g.mWorkstationNameConfig.mCheckBind = true)
    (hauto : g.mWorkstationNameConfig.mAutoBind = true)
    (hnone : g.mWorkstationNameConfig.mBindTable.lookup user = none)
    (later : List AuthSucceedInput) :
    documentedRecord g (first :: later) user = some workstation := by
  have hbinds : BindsUser g user first := by
    obtain ⟨hdash, hempty⟩ := ne_of_isVaildIpAddress hfirst.valid
    refine ⟨hfirst.userName, hfirst.logonType, hempty, hdash, ?_⟩
    rw [hfirst.workstationName]
    exact hu
  unfold documentedRecord firstWorkstation
  rw [hnone]
  dsimp only
  have hfind : (first :: later).find? (fun i => decide (BindsUser g user i)) = some first :=
    List.find?_cons_of_pos (decide_eq_true hbinds)
  rw [if_pos ⟨hcheck, hauto⟩, hfind]
  exact congrArg some hfirst.workstationName

/-- Some proper extension of a name is in neither list. -/
theorem exists_unlisted_extension (g : ApplicationConfig B) (workstation : String) :
    ∃ other, workstation.toList <+: other.toList ∧ other ≠ workstation ∧ Unlisted g other := by
  let listed := g.mWorkstationNameConfig.mWhitelist ∪ g.mWorkstationNameConfig.mBlocklist
  let n := listed.sup String.length
  let other := workstation ++ String.ofList (List.replicate (n + 1) 'x')
  have hlength : other.length = workstation.length + (n + 1) := by
    rw [String.length_append, String.length_ofList, List.length_replicate]
  refine ⟨other, ?_, ?_, ?_⟩
  · rw [String.toList_append]
    exact List.prefix_append _ _
  · intro h
    rw [h] at hlength
    omega
  · have hlong : other ∉ listed := by
      intro hmem
      have hle : other.length ≤ n := Finset.le_sup (f := String.length) hmem
      omega
    rw [Finset.mem_union, not_or] at hlong
    exact hlong

/-- Auto-binding is exact for the names that, as expressions, match themselves and no other
unlisted name. A name without metacharacters is not among them. -/
theorem binds_exactly_iff {user workstation : String} {first : AuthSucceedInput}
    (hfirst : LoginFrom g user workstation first) (hu : Unlisted g workstation)
    (hcheck : g.mWorkstationNameConfig.mCheckBind = true)
    (hauto : g.mWorkstationNameConfig.mAutoBind = true)
    (hnone : g.mWorkstationNameConfig.mBindTable.lookup user = none) :
    (BindsExactly g user workstation first ↔ B.regexAccepts workstation = true ∧
        ∀ other, Unlisted g other →
          (B.regexSearch workstation other = some true ↔ other = workstation)) ∧
      (B.SearchesLiterals → MetacharacterFree workstation →
        ¬ BindsExactly g user workstation first) := by
  have hiff : BindsExactly g user workstation first ↔ B.regexAccepts workstation = true ∧
      ∀ other, Unlisted g other →
        (B.regexSearch workstation other = some true ↔ other = workstation) := by
    have hrec := hfirst.documentedRecord_eq hu hcheck hauto hnone
    have hown : LetsThrough g [] first ↔
        B.regexAccepts workstation = true ∧ B.regexSearch workstation workstation = some true :=
      hfirst.letsThrough_iff hu hcheck rfl (hrec [])
    unfold BindsExactly
    rw [hown]
    constructor
    · intro h
      obtain ⟨⟨ha, hself⟩, hlater⟩ := h
      refine ⟨ha, fun other hother => ?_⟩
      have hlogin := hfirst.fromWorkstation other
      have halive : (authSucceedState g [first]).alive = true := (hown.mpr ⟨ha, hself⟩).1
      have hthrough := hlater [] _ other halive hlogin hother
      rw [hlogin.letsThrough_iff hother hcheck halive (hrec _)] at hthrough
      rw [← hthrough]
      exact ⟨fun h => ⟨ha, h⟩, fun h => h.2⟩
    · intro h
      obtain ⟨ha, hmatch⟩ := h
      refine ⟨⟨ha, (hmatch workstation hu).mpr rfl⟩, fun later i other halive hi hother => ?_⟩
      rw [hi.letsThrough_iff hother hcheck halive (hrec _), hmatch other hother]
      exact ⟨fun h => h.2, fun h => ⟨ha, h⟩⟩
  refine ⟨hiff, fun hB hfree hexact => ?_⟩
  obtain ⟨other, hext, hne, hother⟩ := exists_unlisted_extension g workstation
  have hmatch : B.regexSearch workstation other = some true := by
    rw [(hB workstation hfree).2 other, decide_eq_true hext.isInfix]
  exact hne (((hiff.mp hexact).2 other hother).mp hmatch)

theorem binds_exactly_iff_pc1 :
    (BindsExactly ({} : ApplicationConfig Boost.plain) "alice" "PC1"
          (loginOf "alice" "PC1" "1.2.3.4") ↔
        Boost.plain.regexAccepts "PC1" = true ∧
          ∀ other, Unlisted ({} : ApplicationConfig Boost.plain) other →
            (Boost.plain.regexSearch "PC1" other = some true ↔ other = "PC1")) ∧
      (Boost.plain.SearchesLiterals → MetacharacterFree "PC1" →
        ¬ BindsExactly ({} : ApplicationConfig Boost.plain) "alice" "PC1"
          (loginOf "alice" "PC1" "1.2.3.4")) :=
  binds_exactly_iff (g := ({} : ApplicationConfig Boost.plain))
    ⟨rfl, rfl, rfl, by decide, rfl, by decide⟩ ⟨by decide, by decide⟩ rfl rfl rfl

/-- After a login from `PC1`, a login of the same user from `PC10` passes. -/
theorem longer_name_passes :
    Boost.plain.SearchesLiterals ∧ LoginFrom ({} : ApplicationConfig Boost.plain) "alice" "PC1"
        (loginOf "alice" "PC1" "1.2.3.4") ∧
      LoginFrom ({} : ApplicationConfig Boost.plain) "alice" "PC10"
        (loginOf "alice" "PC10" "1.2.3.5") ∧
      LetsThrough ({} : ApplicationConfig Boost.plain) [loginOf "alice" "PC1" "1.2.3.4"]
        (loginOf "alice" "PC10" "1.2.3.5") ∧
      ¬ BindsExactly ({} : ApplicationConfig Boost.plain) "alice" "PC1"
        (loginOf "alice" "PC1" "1.2.3.4") := by
  have hfirst : LoginFrom ({} : ApplicationConfig Boost.plain) "alice" "PC1"
      (loginOf "alice" "PC1" "1.2.3.4") := ⟨rfl, rfl, rfl, by decide, rfl, by decide⟩
  have hother : LoginFrom ({} : ApplicationConfig Boost.plain) "alice" "PC10"
      (loginOf "alice" "PC10" "1.2.3.5") := ⟨rfl, rfl, rfl, by decide, rfl, by decide⟩
  have hthrough : LetsThrough ({} : ApplicationConfig Boost.plain)
      [loginOf "alice" "PC1" "1.2.3.4"] (loginOf "alice" "PC10" "1.2.3.5") := by
    refine ⟨by decide, ?_⟩
    intro h
    obtain ⟨request, hr, _⟩ := h
    have hnone : ((authSucceedState ({} : ApplicationConfig Boost.plain)
        [loginOf "alice" "PC1" "1.2.3.4"]).step (loginOf "alice" "PC10" "1.2.3.5")).2 = none := by
      decide
    rw [hnone] at hr
    cases hr
  refine ⟨Boost.plain_searchesLiterals, hfirst, hother, hthrough, fun h => ?_⟩
  have heq := (h.2 [] _ "PC10" (by decide) hother ⟨by decide, by decide⟩).mp hthrough
  exact absurd heq (by decide)

end RDPBlocker

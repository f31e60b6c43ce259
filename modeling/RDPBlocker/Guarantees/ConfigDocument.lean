import Mathlib.Data.Finset.Lattice.Lemmas
import RDPBlocker.Guarantees.ConfigFile

/-! A configuration that loads is the one that its document states. -/
namespace RDPBlocker
open Foundation
variable {B : Boost} {S : Spdlog}

/-- What a document states. -/
structure ConfigDocument (B : Boost) where
  block : ApplicationBlockConfig
  failBan : ApplicationFailBanConfig
  enableCheck : Bool
  checkBind : Bool
  autoBind : Bool
  userBind : List (String × String)
  blocklist : List String
  whitelist : List String
  level : String
  ipWhitelist : List (Regex B)

/-- The configuration after a document: its scalars replace what was there, its lists are added to
it, and of several bindings of one user the last one counts. -/
def ConfigDocument.write (doc : ConfigDocument B) (g : LoadedConfig B S) : LoadedConfig B S :=
  { g with
    mBlock := doc.block
    mFailBan := doc.failBan
    mWorkstationNameConfig := {
      mEnableCheck := doc.enableCheck
      mCheckBind := doc.checkBind
      mAutoBind := doc.autoBind
      mBindTable := doc.userBind.foldl (fun table it => table.insert it.1 it.2)
        g.mWorkstationNameConfig.mBindTable
      mBlocklist := g.mWorkstationNameConfig.mBlocklist ∪ doc.blocklist.toFinset
      mWhitelist := g.mWorkstationNameConfig.mWhitelist ∪ doc.whitelist.toFinset }
    mIpConfig := ⟨g.mIpConfig.mWhitelist ++ doc.ipWhitelist⟩
    mLevel := S.fromStr (doc.level.map Char.toLower) }

def bindUser (binding : String × String) (g : LoadedConfig B S) : LoadedConfig B S :=
  { g with
    mWorkstationNameConfig := g.mWorkstationNameConfig.createBindRecord binding.1 binding.2 }

def blockName (name : String) (g : LoadedConfig B S) : LoadedConfig B S :=
  { g with mWorkstationNameConfig.mBlocklist := insert name g.mWorkstationNameConfig.mBlocklist }

def whiteName (name : String) (g : LoadedConfig B S) : LoadedConfig B S :=
  { g with mWorkstationNameConfig.mWhitelist := insert name g.mWorkstationNameConfig.mWhitelist }

def whiteAddress (expression : Regex B) (g : LoadedConfig B S) : LoadedConfig B S :=
  { g with mIpConfig.mWhitelist := g.mIpConfig.mWhitelist ++ [expression] }

section writes
variable {g : LoadedConfig B S}

theorem foldl_bindUser (bindings : List (String × String)) :
    bindings.foldl (fun g binding => bindUser binding g) g = { g with
      mWorkstationNameConfig.mBindTable := bindings.foldl (fun table it => table.insert it.1 it.2)
        g.mWorkstationNameConfig.mBindTable } := by
  induction bindings generalizing g with
  | nil => rfl
  | cons binding bindings ih => exact ih

theorem foldl_blockName (names : List String) :
    names.foldl (fun g name => blockName name g) g = { g with
      mWorkstationNameConfig.mBlocklist :=
        g.mWorkstationNameConfig.mBlocklist ∪ names.toFinset } := by
  induction names generalizing g with
  | nil =>
    rw [List.toFinset_nil, Finset.union_empty]
    rfl
  | cons name names ih =>
    rw [List.foldl_cons, ih, List.toFinset_cons, Finset.union_insert]
    simp only [blockName, Finset.insert_union]

theorem foldl_whiteName (names : List String) :
    names.foldl (fun g name => whiteName name g) g = { g with
      mWorkstationNameConfig.mWhitelist :=
        g.mWorkstationNameConfig.mWhitelist ∪ names.toFinset } := by
  induction names generalizing g with
  | nil =>
    rw [List.toFinset_nil, Finset.union_empty]
    rfl
  | cons name names ih =>
    rw [List.foldl_cons, ih, List.toFinset_cons, Finset.union_insert]
    simp only [whiteName, Finset.insert_union]

theorem foldl_whiteAddress (expressions : List (Regex B)) :
    expressions.foldl (fun g expression => whiteAddress expression g) g =
      { g with mIpConfig.mWhitelist := g.mIpConfig.mWhitelist ++ expressions } := by
  induction expressions generalizing g with
  | nil =>
    rw [List.append_nil]
    rfl
  | cons expression expressions ih =>
    rw [List.foldl_cons, ih]
    simp only [whiteAddress, List.append_assoc, List.singleton_append]

end writes

theorem map_eq_map_iff_forall₂ {α β γ : Type} {f : α → γ} {k : β → γ} {as : List α}
    {bs : List β} : as.map f = bs.map k ↔ as.Forall₂ (fun a b => f a = k b) bs := by
  rw [← List.forall₂_eq_eq_eq, List.forall₂_map_left_iff, List.forall₂_map_right_iff]

namespace YamlCpp
variable (Y : YamlCpp)

/-- An entry of the table of bindings. -/
def IsBinding (it : Y.Node × Y.Node) (binding : String × String) : Prop :=
  Y.asString it.1 = some binding.1 ∧ Y.asString it.2 = some binding.2

/-- The root states the document. -/
structure States (root : Y.Node) (doc : ConfigDocument B) : Prop where
  block : ∃ node, Y.subscript root "block" = some node ∧
    Y.intAt node "block_time" = some doc.block.mBlockTime ∧
    Y.intAt node "random_delay_min" = some doc.block.mRandomDelayMin ∧
    Y.intAt node "random_delay_max" = some doc.block.mRandomDelayMax
  failBan : ∃ node, Y.subscript root "failban" = some node ∧
    Y.boolAt node "enable" = some doc.failBan.mEnable ∧
    Y.intAt node "threshold" = some doc.failBan.mThreshold ∧
    Y.intAt node "expire_time" = some doc.failBan.mExpireTime
  workstationName : ∃ node, Y.subscript root "workstation_name" = some node ∧
    Y.boolAt node "enable_check" = some doc.enableCheck ∧
    Y.boolAt node "check_bind" = some doc.checkBind ∧
    Y.boolAt node "auto_bind" = some doc.autoBind
  userBind : ∃ pairs, Y.userBind root = some pairs ∧
    pairs.Forall₂ Y.IsBinding doc.userBind
  blocklist : Y.strings root "workstation_name" "blocklist" = some (doc.blocklist.map some)
  whitelist : Y.strings root "workstation_name" "whitelist" = some (doc.whitelist.map some)
  log : ∃ node, Y.subscript root "log" = some node ∧ Y.stringAt node "level" = some doc.level
  ipWhitelist : Y.strings root "IP_Address" "whitelist" =
    some (doc.ipWhitelist.map fun expression => some expression.expression)

theorem writes_loadBlock (root : Y.Node) :
    (Y.loadBlock root : Loader B S Unit).Writes fun w => ∃ block : ApplicationBlockConfig,
      (∃ node, Y.subscript root "block" = some node ∧
        Y.intAt node "block_time" = some block.mBlockTime ∧
        Y.intAt node "random_delay_min" = some block.mRandomDelayMin ∧
        Y.intAt node "random_delay_max" = some block.mRandomDelayMax) ∧
      w = fun g => { g with mBlock := block } := by
  have h : (Y.loadBlock root : Loader B S Unit).Writes _ :=
    .ofOption _ fun _ => .ofOption _ fun _ => .seq (.modify _) (.ofOption _ fun _ =>
      .seq (.modify _) (.ofOption _ fun _ => .modify _))
  refine h.congr fun w => ?_
  constructor
  · rintro ⟨node, hnode, blockTime, hblock, _, _, rfl, ⟨delayMin, hmin, _, _, rfl,
      ⟨delayMax, hmax, rfl⟩, rfl⟩, rfl⟩
    exact ⟨⟨blockTime, delayMin, delayMax⟩, ⟨node, hnode, hblock, hmin, hmax⟩, rfl⟩
  · rintro ⟨block, ⟨node, hnode, hblock, hmin, hmax⟩, rfl⟩
    exact ⟨node, hnode, _, hblock, _, _, rfl, ⟨_, hmin, _, _, rfl, ⟨_, hmax, rfl⟩, rfl⟩, rfl⟩

theorem writes_loadFailBan (root : Y.Node) :
    (Y.loadFailBan root : Loader B S Unit).Writes fun w => ∃ failBan : ApplicationFailBanConfig,
      (∃ node, Y.subscript root "failban" = some node ∧
        Y.boolAt node "enable" = some failBan.mEnable ∧
        Y.intAt node "threshold" = some failBan.mThreshold ∧
        Y.intAt node "expire_time" = some failBan.mExpireTime) ∧
      w = fun g => { g with mFailBan := failBan } := by
  have h : (Y.loadFailBan root : Loader B S Unit).Writes _ :=
    .ofOption _ fun _ => .ofOption _ fun _ => .seq (.modify _) (.ofOption _ fun _ =>
      .seq (.modify _) (.ofOption _ fun _ => .modify _))
  refine h.congr fun w => ?_
  constructor
  · rintro ⟨node, hnode, enable, henable, _, _, rfl, ⟨threshold, hthreshold, _, _, rfl,
      ⟨expire, hexpire, rfl⟩, rfl⟩, rfl⟩
    exact ⟨⟨enable, threshold, expire⟩, ⟨node, hnode, henable, hthreshold, hexpire⟩, rfl⟩
  · rintro ⟨failBan, ⟨node, hnode, henable, hthreshold, hexpire⟩, rfl⟩
    exact ⟨node, hnode, _, henable, _, _, rfl, ⟨_, hthreshold, _, _, rfl, ⟨_, hexpire, rfl⟩, rfl⟩,
      rfl⟩

theorem writes_loadLog (root : Y.Node) :
    (Y.loadLog root : Loader B S Unit).Writes fun w => ∃ level,
      (∃ node, Y.subscript root "log" = some node ∧ Y.stringAt node "level" = some level) ∧
        w = fun g => setLevel g level := by
  have h : (Y.loadLog root : Loader B S Unit).Writes _ :=
    .ofOption _ fun _ => .ofOption _ fun _ => .modify _
  refine h.congr fun w => ?_
  constructor
  · rintro ⟨node, hnode, level, hlevel, rfl⟩
    exact ⟨level, ⟨node, hnode, hlevel⟩, rfl⟩
  · rintro ⟨level, ⟨node, hnode, hlevel⟩, rfl⟩
    exact ⟨node, hnode, level, hlevel, rfl⟩

theorem writes_bindEntry (it : Y.Node × Y.Node) :
    (do
      let userName ← yaml (Y.asString it.1)
      let bindName ← yaml (Y.asString it.2)
      modify (bindUser (userName, bindName)) : Loader B S Unit).Writes fun w =>
        ∃ binding, Y.IsBinding it binding ∧ w = bindUser binding := by
  refine Raising.Writes.congr (.ofOption _ fun _ => .ofOption _ fun _ => .modify _) fun w => ?_
  constructor
  · rintro ⟨userName, huser, bindName, hbind, rfl⟩
    exact ⟨(userName, bindName), ⟨huser, hbind⟩, rfl⟩
  · rintro ⟨binding, ⟨huser, hbind⟩, rfl⟩
    exact ⟨binding.1, huser, binding.2, hbind, rfl⟩

theorem writes_loadUserBind (node : Y.Node) :
    (Y.loadUserBind node : Loader B S Unit).Writes fun w => ∃ bindings,
      (∃ pairs, (Y.constSubscript node "user_bind").bind Y.pairs = some pairs ∧
        pairs.Forall₂ Y.IsBinding bindings) ∧
      w = fun g => bindings.foldl (fun g binding => bindUser binding g) g := by
  have h : (Y.loadUserBind node : Loader B S Unit).Writes _ :=
    .ofOption _ fun _ => .ofOption _ fun pairs => .forM Y.writes_bindEntry pairs
  refine h.congr fun w => ?_
  constructor
  · rintro ⟨list, hlist, pairs, hpairs, bindings, hbindings, rfl⟩
    exact ⟨bindings, ⟨pairs, by rw [hlist]; exact hpairs, hbindings⟩, rfl⟩
  · rintro ⟨bindings, ⟨pairs, hpairs, hbindings⟩, rfl⟩
    obtain ⟨list, hlist, hpairs⟩ := Option.bind_eq_some_iff.mp hpairs
    exact ⟨list, hlist, pairs, hpairs, bindings, hbindings, rfl⟩

theorem writes_loadNames (node : Y.Node) (key : String)
    (insert : String → LoadedConfig B S → LoadedConfig B S) :
    (Y.loadNames node key insert).Writes fun w => ∃ names : List String,
      ((Y.constSubscript node key).bind fun list =>
        (Y.size list).map fun size => (List.range size).map (Y.stringItem list)) =
          some (names.map some) ∧
      w = fun g => names.foldl (fun g name => insert name g) g := by
  have h : (Y.loadNames node key insert).Writes _ :=
    .ofOption _ fun list => .ofOption _ fun size =>
      .forM (fun _ => .ofOption _ fun name => .modify (insert name)) (List.range size)
  refine h.congr fun w => ?_
  constructor
  · rintro ⟨list, hlist, size, hsize, names, hnames, rfl⟩
    refine ⟨names, ?_, rfl⟩
    rw [hlist, Option.bind_some, hsize, Option.map_some, map_eq_map_iff_forall₂.mpr hnames]
  · rintro ⟨names, hnames, rfl⟩
    obtain ⟨list, hlist, hnames⟩ := Option.bind_eq_some_iff.mp hnames
    obtain ⟨size, hsize, hnames⟩ := Option.map_eq_some_iff.mp hnames
    exact ⟨list, hlist, size, hsize, names, map_eq_map_iff_forall₂.mp hnames, rfl⟩

theorem writes_loadWorkstationName (root : Y.Node) :
    (Y.loadWorkstationName root : Loader B S Unit).Writes fun w =>
      ∃ (enableCheck checkBind autoBind : Bool) (userBind : List (String × String))
        (blocklist whitelist : List String),
        ((∃ node, Y.subscript root "workstation_name" = some node ∧
          Y.boolAt node "enable_check" = some enableCheck ∧
          Y.boolAt node "check_bind" = some checkBind ∧
          Y.boolAt node "auto_bind" = some autoBind) ∧
        (∃ pairs, Y.userBind root = some pairs ∧ pairs.Forall₂ Y.IsBinding userBind) ∧
        Y.strings root "workstation_name" "blocklist" = some (blocklist.map some) ∧
        Y.strings root "workstation_name" "whitelist" = some (whitelist.map some)) ∧
        w = fun g => { g with mWorkstationNameConfig := {
          mEnableCheck := enableCheck
          mCheckBind := checkBind
          mAutoBind := autoBind
          mBindTable := userBind.foldl (fun table it => table.insert it.1 it.2)
            g.mWorkstationNameConfig.mBindTable
          mBlocklist := g.mWorkstationNameConfig.mBlocklist ∪ blocklist.toFinset
          mWhitelist := g.mWorkstationNameConfig.mWhitelist ∪ whitelist.toFinset } } := by
  have h : (Y.loadWorkstationName root : Loader B S Unit).Writes _ :=
    .ofOption _ fun node => .ofOption _ fun _ => .seq (.modify _) (.ofOption _ fun _ =>
      .seq (.modify _) (.ofOption _ fun _ => .seq (.modify _)
        (.seq (Y.writes_loadUserBind node)
          (.seq (Y.writes_loadNames node "blocklist" blockName)
            (Y.writes_loadNames node "whitelist" whiteName)))))
  refine h.congr fun w => ?_
  constructor
  · rintro ⟨node, hnode, enableCheck, hcheck, _, _, rfl, ⟨checkBind, hbind, _, _, rfl,
      ⟨autoBind, hauto, _, _, rfl, ⟨_, _, ⟨userBind, hpairs, rfl⟩,
        ⟨_, _, ⟨blocklist, hblock, rfl⟩, ⟨whitelist, hwhite, rfl⟩, rfl⟩, rfl⟩, rfl⟩, rfl⟩, rfl⟩
    refine ⟨enableCheck, checkBind, autoBind, userBind, blocklist, whitelist,
      ⟨⟨node, hnode, hcheck, hbind, hauto⟩, ?_, ?_, ?_⟩, ?_⟩
    · rw [YamlCpp.userBind, hnode]
      exact hpairs
    · rw [strings, hnode]
      exact hblock
    · rw [strings, hnode]
      exact hwhite
    · funext g
      simp only [Function.comp_apply, foldl_bindUser, foldl_blockName, foldl_whiteName]
  · rintro ⟨enableCheck, checkBind, autoBind, userBind, blocklist, whitelist,
      ⟨⟨node, hnode, hcheck, hbind, hauto⟩, hpairs, hblock, hwhite⟩, rfl⟩
    rw [YamlCpp.userBind, hnode] at hpairs
    rw [strings, hnode] at hblock hwhite
    refine ⟨node, hnode, enableCheck, hcheck, _, _, rfl, ⟨checkBind, hbind, _, _, rfl,
      ⟨autoBind, hauto, _, _, rfl, ⟨_, _, ⟨userBind, hpairs, rfl⟩,
        ⟨_, _, ⟨blocklist, hblock, rfl⟩, ⟨whitelist, hwhite, rfl⟩, rfl⟩, rfl⟩, rfl⟩, rfl⟩, ?_⟩
    funext g
    simp only [Function.comp_apply, foldl_bindUser, foldl_blockName, foldl_whiteName]

theorem writes_loadIpEntry (entry : Option String) :
    (loadIpEntry entry : Loader B S Unit).Writes fun w =>
      ∃ expression : Regex B, entry = some expression.expression ∧ w = whiteAddress expression := by
  have hnew (text : String) :
      (do
        let expression ← newRegex text
        modify (whiteAddress expression) : Loader B S Unit).Writes fun w =>
          ∃ expression : Regex B, expression.expression = text ∧ w = whiteAddress expression := by
    by_cases hvalid : B.regexAccepts text = true
    · have hok : (newRegex text : Loader B S (Regex B)) = pure ⟨text, hvalid⟩ := dif_pos hvalid
      rw [hok, pure_bind]
      refine (Raising.Writes.modify _).congr fun w => ?_
      constructor
      · rintro rfl
        exact ⟨_, rfl, rfl⟩
      · rintro ⟨⟨_, _⟩, rfl, rfl⟩
        rfl
    · have hraises := (newRegex_ends_error (S := S) hvalid).bind_error (f := fun expression =>
        modify (whiteAddress expression))
      refine (Raising.Writes.of_ends_error hraises).congr fun w => ?_
      constructor
      · exact False.elim
      · rintro ⟨expression, rfl, -⟩
        exact hvalid expression.accepted
  refine Raising.Writes.congr (.ofOption entry hnew) fun w => ?_
  constructor
  · rintro ⟨_, hentry, expression, rfl, rfl⟩
    exact ⟨expression, hentry, rfl⟩
  · rintro ⟨expression, hentry, rfl⟩
    exact ⟨_, hentry, expression, rfl, rfl⟩

theorem writes_loadIpAddress (root : Y.Node) :
    (Y.loadIpAddress root : Loader B S Unit).Writes fun w => ∃ expressions : List (Regex B),
      Y.strings root "IP_Address" "whitelist" =
        some (expressions.map fun expression => some expression.expression) ∧
      w = fun g => { g with mIpConfig := ⟨g.mIpConfig.mWhitelist ++ expressions⟩ } := by
  have h : (Y.loadIpAddress root : Loader B S Unit).Writes _ :=
    .ofOption _ fun _ => .ofOption _ fun list => .ofOption _ fun size =>
      .forM (fun i => writes_loadIpEntry (Y.stringItem list i)) (List.range size)
  refine h.congr fun w => ?_
  simp only [foldl_whiteAddress, ← map_eq_map_iff_forall₂]
  constructor
  · rintro ⟨node, hnode, list, hlist, size, hsize, expressions, hexpressions, rfl⟩
    refine ⟨expressions, ?_, rfl⟩
    rw [strings, hnode, Option.bind_some, hlist, Option.bind_some, hsize, Option.map_some,
      hexpressions]
  · rintro ⟨expressions, hstrings, rfl⟩
    obtain ⟨node, hnode, hstrings⟩ := Option.bind_eq_some_iff.mp hstrings
    obtain ⟨list, hlist, hstrings⟩ := Option.bind_eq_some_iff.mp hstrings
    obtain ⟨size, hsize, hexpressions⟩ := Option.map_eq_some_iff.mp hstrings
    exact ⟨node, hnode, list, hlist, size, hsize, expressions, hexpressions, rfl⟩

theorem writes_loadRoot (fileText : String) :
    (Y.loadRoot fileText : Loader B S Unit).Writes fun w =>
      ∃ (root : Y.Node) (doc : ConfigDocument B),
        Y.load fileText = some root ∧ Y.States root doc ∧ w = doc.write := by
  have h : (Y.loadRoot fileText : Loader B S Unit).Writes _ :=
    .ofOption _ fun root => .seq (Y.writes_loadBlock root) (.seq (Y.writes_loadFailBan root)
      (.seq (Y.writes_loadWorkstationName root) (.seq (Y.writes_loadLog root)
        (Y.writes_loadIpAddress root))))
  refine h.congr fun w => ?_
  constructor
  · rintro ⟨root, hroot, _, _, ⟨block, hblock, rfl⟩, ⟨_, _, ⟨failBan, hfailBan, rfl⟩, ⟨_, _,
      ⟨enableCheck, checkBind, autoBind, userBind, blocklist, whitelist,
        ⟨hchecks, hbind, hblocklist, hwhitelist⟩, rfl⟩,
      ⟨_, _, ⟨level, hlevel, rfl⟩, ⟨expressions, hexpressions, rfl⟩, rfl⟩, rfl⟩, rfl⟩, rfl⟩
    exact ⟨root, ⟨block, failBan, enableCheck, checkBind, autoBind, userBind, blocklist, whitelist,
      level, expressions⟩, hroot,
      ⟨hblock, hfailBan, hchecks, hbind, hblocklist, hwhitelist, hlevel, hexpressions⟩, rfl⟩
  · rintro ⟨root, doc, hroot, hdoc, rfl⟩
    exact ⟨root, hroot, _, _, ⟨doc.block, hdoc.block, rfl⟩, ⟨_, _, ⟨doc.failBan, hdoc.failBan, rfl⟩,
      ⟨_, _, ⟨doc.enableCheck, doc.checkBind, doc.autoBind, doc.userBind, doc.blocklist,
        doc.whitelist, ⟨hdoc.workstationName, hdoc.userBind, hdoc.blocklist, hdoc.whitelist⟩, rfl⟩,
      ⟨_, _, ⟨doc.level, hdoc.log, rfl⟩, ⟨doc.ipWhitelist, hdoc.ipWhitelist, rfl⟩, rfl⟩, rfl⟩,
      rfl⟩, rfl⟩

end YamlCpp

/-- Loading succeeds if and only if the file states a document, and then the configuration is what
the document writes and nothing else. -/
theorem load_writes_document (Y : YamlCpp) (file : Option String) (g g' : LoadedConfig B S) :
    Y.loadConfigFile file g = (.ok true, g') ↔
      ∃ (fileText : String) (root : Y.Node) (doc : ConfigDocument B), file = some fileText ∧
        Y.load fileText = some root ∧ Y.States root doc ∧ g' = doc.write g := by
  cases file with
  | none =>
    constructor
    · intro h
      cases congrArg Prod.fst h
    · rintro ⟨_, _, _, hfile, -⟩
      cases hfile
  | some fileText =>
    have hload : Y.loadConfigFile (some fileText) g = (.ok true, g') ↔
        (Y.loadRoot fileText).execute g = (.ok (), g') := by
      unfold YamlCpp.loadConfigFile
      dsimp only
      rcases (Y.loadRoot fileText : Loader B S Unit).execute g with ⟨(_ | _) | ⟨⟩, g''⟩
      · simp
      · simp
      · simp
    rw [hload, Y.writes_loadRoot fileText g g']
    constructor
    · rintro ⟨_, ⟨root, doc, hroot, hdoc, rfl⟩, rfl⟩
      exact ⟨fileText, root, doc, rfl, hroot, hdoc, rfl⟩
    · rintro ⟨_, root, doc, hfile, hroot, hdoc, rfl⟩
      cases hfile
      exact ⟨_, ⟨root, doc, hroot, hdoc, rfl⟩, rfl⟩

end RDPBlocker

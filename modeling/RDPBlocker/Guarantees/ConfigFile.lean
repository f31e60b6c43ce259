import Mathlib.Data.List.TakeWhile
import RDPBlocker.Program.ConfigFile

/-! What loading a configuration file decides. -/
namespace RDPBlocker
open Foundation

inductive ScalarType
  | int
  | bool
  | string
deriving DecidableEq, Repr

/-- The section, the key and the type of every scalar that loading converts. -/
def requiredScalars : List (String × String × ScalarType) :=
  [("block", "block_time", .int), ("block", "random_delay_min", .int),
    ("block", "random_delay_max", .int), ("failban", "enable", .bool),
    ("failban", "threshold", .int), ("failban", "expire_time", .int),
    ("workstation_name", "enable_check", .bool), ("workstation_name", "check_bind", .bool),
    ("workstation_name", "auto_bind", .bool), ("log", "level", .string)]

variable {B : Boost} {S : Spdlog}

/-- The outcome of the loop over the expressions for addresses. -/
def checkEntries (B : Boost) : List (Option String) → Except LoadException Unit
  | [] => .ok ()
  | none :: _ => .error .yaml
  | some expression :: entries =>
    if B.regexAccepts expression = true then checkEntries B entries
    else .error (.regex ⟨expression⟩)

/-- The outcome for the list, which the document may not have. -/
def checkWhitelist (B : Boost) : Option (List (Option String)) → Except LoadException Unit
  | none => .error .yaml
  | some entries => checkEntries B entries

/-- The expressions before the first entry that does not convert are valid. -/
def ConvertedEntriesValid (B : Boost) (entries : List (Option String)) : Prop :=
  ∀ expression, some expression ∈ entries.takeWhile Option.isSome →
    B.regexAccepts expression = true

theorem convertedEntriesValid_cons {expression : String} {entries : List (Option String)} :
    ConvertedEntriesValid B (some expression :: entries) ↔
      B.regexAccepts expression = true ∧ ConvertedEntriesValid B entries := by
  simp [ConvertedEntriesValid]

theorem checkEntries_of_valid {entries : List (Option String)}
    (h : ConvertedEntriesValid B entries) :
    checkEntries B entries = if none ∈ entries then .error .yaml else .ok () := by
  induction entries with
  | nil => rfl
  | cons entry entries ih =>
    cases entry with
    | none => simp [checkEntries]
    | some expression =>
      obtain ⟨hvalid, hrest⟩ := convertedEntriesValid_cons.mp h
      simp [checkEntries, hvalid, ih hrest]

theorem checkEntries_of_not_valid {entries : List (Option String)}
    (h : ¬ ConvertedEntriesValid B entries) :
    ∃ err, checkEntries B entries = .error (.regex err) := by
  induction entries with
  | nil => exact absurd (by simp [ConvertedEntriesValid]) h
  | cons entry entries ih =>
    cases entry with
    | none => exact absurd (by simp [ConvertedEntriesValid]) h
    | some expression =>
      by_cases hvalid : B.regexAccepts expression = true
      · obtain ⟨err, herr⟩ := ih fun hrest => h (convertedEntriesValid_cons.mpr ⟨hvalid, hrest⟩)
        exact ⟨err, by rw [checkEntries, if_pos hvalid, herr]⟩
      · exact ⟨⟨expression⟩, by rw [checkEntries, if_neg hvalid]⟩

theorem newRegex_ends_ok {expression : String} (h : B.regexAccepts expression = true) :
    (newRegex expression : Loader B S (Regex B)).Ends (.ok ⟨expression, h⟩) := by
  unfold newRegex
  rw [dif_pos h]
  exact fun _ => rfl

theorem newRegex_ends_error {expression : String} (h : ¬ B.regexAccepts expression = true) :
    (newRegex expression : Loader B S (Regex B)).Ends (.error (.regex ⟨expression⟩)) := by
  unfold newRegex
  rw [dif_neg h]
  exact fun _ => rfl

theorem forM_loadIpEntry_ends (indices : List ℕ) (entry : ℕ → Option String) :
    (indices.forM fun i => (loadIpEntry (entry i) : Loader B S Unit)).Ends
      (checkEntries B (indices.map entry)) := by
  induction indices with
  | nil => exact fun _ => rfl
  | cons i indices ih =>
    rw [List.map_cons]
    cases hi : entry i with
    | none =>
      have hentry : (loadIpEntry (entry i) : Loader B S Unit).Ends (.error .yaml) := by
        rw [hi]
        exact fun _ => rfl
      exact hentry.bind_error
    | some expression =>
      unfold checkEntries
      by_cases hvalid : B.regexAccepts expression = true
      · have hentry : (loadIpEntry (entry i) : Loader B S Unit).Ends (.ok ()) := by
          rw [hi]
          exact (newRegex_ends_ok hvalid).bind_ok fun _ => rfl
        rw [if_pos hvalid]
        exact hentry.bind_ok ih
      · have hentry : (loadIpEntry (entry i) : Loader B S Unit).Ends
            (.error (.regex ⟨expression⟩)) := by
          rw [hi]
          exact (newRegex_ends_error hvalid).bind_error
        rw [if_neg hvalid]
        exact hentry.bind_error

/-- The value that the program goes on with, or the exception that nothing catches. -/
def finish : Except LoadException Unit → Except RegexError Bool
  | .ok () => .ok true
  | .error .yaml => .ok false
  | .error (.regex err) => .error err

namespace YamlCpp
variable (Y : YamlCpp)

def converts (node : Y.Node) (key : String) : ScalarType → Bool
  | .int => (Y.intAt node key).isSome
  | .bool => (Y.boolAt node key).isSome
  | .string => (Y.stringAt node key).isSome

def HasScalar (root : Y.Node) (r : String × String × ScalarType) : Prop :=
  ∃ node, Y.subscript root r.1 = some node ∧ Y.converts node r.2.1 r.2.2 = true

/-- The entries of a list; `none` is one that does not convert. -/
def strings (root : Y.Node) (section_ key : String) : Option (List (Option String)) :=
  (Y.subscript root section_).bind fun node =>
    (Y.constSubscript node key).bind fun list =>
      (Y.size list).map fun size => (List.range size).map (Y.stringItem list)

def userBind (root : Y.Node) : Option (List (Y.Node × Y.Node)) :=
  (Y.subscript root "workstation_name").bind fun node =>
    (Y.constSubscript node "user_bind").bind Y.pairs

/-- All that is converted before the list of expressions for addresses is converted. -/
structure Readable (root : Y.Node) : Prop where
  scalars : ∀ r ∈ requiredScalars, Y.HasScalar root r
  userBind : ∃ pairs, Y.userBind root = some pairs ∧
    ∀ it ∈ pairs, (∃ userName, Y.asString it.1 = some userName) ∧
      ∃ bindName, Y.asString it.2 = some bindName
  blocklist : ∃ names, Y.strings root "workstation_name" "blocklist" = some names ∧ none ∉ names
  whitelist : ∃ names, Y.strings root "workstation_name" "whitelist" = some names ∧ none ∉ names

theorem requires_loadBlock (root : Y.Node) :
    (Y.loadBlock root : Loader B S Unit).Requires .yaml
      (Y.HasScalar root ("block", "block_time", .int) ∧
        Y.HasScalar root ("block", "random_delay_min", .int) ∧
        Y.HasScalar root ("block", "random_delay_max", .int)) := by
  have h : (Y.loadBlock root : Loader B S Unit).Requires .yaml _ :=
    .ofOption _ fun _ => .ofOption _ fun _ => .seq (.modify _) (.ofOption _ fun _ =>
      .seq (.modify _) (.ofOption _ fun _ => .modify _))
  cases hnode : Y.subscript root "block" <;>
    simpa [HasScalar, converts, Option.isSome_iff_exists, hnode] using h

theorem requires_loadFailBan (root : Y.Node) :
    (Y.loadFailBan root : Loader B S Unit).Requires .yaml
      (Y.HasScalar root ("failban", "enable", .bool) ∧
        Y.HasScalar root ("failban", "threshold", .int) ∧
        Y.HasScalar root ("failban", "expire_time", .int)) := by
  have h : (Y.loadFailBan root : Loader B S Unit).Requires .yaml _ :=
    .ofOption _ fun _ => .ofOption _ fun _ => .seq (.modify _) (.ofOption _ fun _ =>
      .seq (.modify _) (.ofOption _ fun _ => .modify _))
  cases hnode : Y.subscript root "failban" <;>
    simpa [HasScalar, converts, Option.isSome_iff_exists, hnode] using h

theorem requires_loadUserBind (node : Y.Node) :
    (Y.loadUserBind node : Loader B S Unit).Requires .yaml
      (∃ pairs, (Y.constSubscript node "user_bind").bind Y.pairs = some pairs ∧
        ∀ it ∈ pairs, (∃ userName, Y.asString it.1 = some userName) ∧
          ∃ bindName, Y.asString it.2 = some bindName) := by
  have h : (Y.loadUserBind node : Loader B S Unit).Requires .yaml _ :=
    .ofOption _ fun _ => .ofOption _ fun pairs => .forM pairs fun _ =>
      .ofOption _ fun _ => .ofOption _ fun _ => .modify _
  cases hnode : Y.constSubscript node "user_bind" <;> simpa [hnode] using h

theorem requires_loadNames (node : Y.Node) (key : String)
    (insert : String → LoadedConfig B S → LoadedConfig B S) :
    (Y.loadNames node key insert).Requires .yaml
      (∃ names, ((Y.constSubscript node key).bind fun list =>
        (Y.size list).map fun size => (List.range size).map (Y.stringItem list)) = some names ∧
          none ∉ names) := by
  have h : (Y.loadNames node key insert).Requires .yaml _ :=
    .ofOption _ fun _ => .ofOption _ fun _ => .forM _ fun _ => .ofOption _ fun _ => .modify _
  cases hnode : Y.constSubscript node key with
  | none => simpa [hnode] using h
  | some list =>
    cases hsize : Y.size list <;> simpa [hnode, hsize, ← Option.ne_none_iff_exists'] using h

theorem requires_loadWorkstationName (root : Y.Node) :
    (Y.loadWorkstationName root : Loader B S Unit).Requires .yaml
      ((Y.HasScalar root ("workstation_name", "enable_check", .bool) ∧
        Y.HasScalar root ("workstation_name", "check_bind", .bool) ∧
        Y.HasScalar root ("workstation_name", "auto_bind", .bool)) ∧
        (∃ pairs, Y.userBind root = some pairs ∧
          ∀ it ∈ pairs, (∃ userName, Y.asString it.1 = some userName) ∧
            ∃ bindName, Y.asString it.2 = some bindName) ∧
        (∃ names, Y.strings root "workstation_name" "blocklist" = some names ∧ none ∉ names) ∧
        ∃ names, Y.strings root "workstation_name" "whitelist" = some names ∧ none ∉ names) := by
  have h : (Y.loadWorkstationName root : Loader B S Unit).Requires .yaml _ :=
    .ofOption _ fun node => .ofOption _ fun _ => .seq (.modify _) (.ofOption _ fun _ =>
      .seq (.modify _) (.ofOption _ fun _ => .seq (.modify _)
        (.seq (Y.requires_loadUserBind node)
          (.seq (Y.requires_loadNames node _ _) (Y.requires_loadNames node _ _)))))
  cases hnode : Y.subscript root "workstation_name" <;>
    simpa [HasScalar, converts, userBind, strings, Option.isSome_iff_exists, hnode, and_assoc]
      using h

theorem requires_loadLog (root : Y.Node) :
    (Y.loadLog root : Loader B S Unit).Requires .yaml
      (Y.HasScalar root ("log", "level", .string)) := by
  have h : (Y.loadLog root : Loader B S Unit).Requires .yaml _ :=
    .ofOption _ fun _ => .ofOption _ fun _ => .modify _
  cases hnode : Y.subscript root "log" <;>
    simpa [HasScalar, converts, Option.isSome_iff_exists, hnode] using h

/-- Everything before the addresses; only what yaml-cpp raises can end it. -/
theorem requires_readable (root : Y.Node) :
    ((do
      Y.loadBlock root
      Y.loadFailBan root
      Y.loadWorkstationName root
      Y.loadLog root) : Loader B S Unit).Requires .yaml (Y.Readable root) := by
  have h := (Y.requires_loadBlock (B := B) (S := S) root).seq ((Y.requires_loadFailBan root).seq
    ((Y.requires_loadWorkstationName root).seq (Y.requires_loadLog root)))
  refine h.congr ?_
  constructor
  · rintro ⟨⟨hb, hb', hb''⟩, ⟨hf, hf', hf''⟩, ⟨⟨hw, hw', hw''⟩, hbind, hblock, hwhite⟩, hlog⟩
    refine ⟨?_, hbind, hblock, hwhite⟩
    simp only [requiredScalars, List.forall_mem_cons]
    exact ⟨hb, hb', hb'', hf, hf', hf'', hw, hw', hw'', hlog, by simp⟩
  · intro hr
    have hscalars := hr.scalars
    simp only [requiredScalars, List.forall_mem_cons] at hscalars
    obtain ⟨hb, hb', hb'', hf, hf', hf'', hw, hw', hw'', hlog, -⟩ := hscalars
    exact ⟨⟨hb, hb', hb''⟩, ⟨hf, hf', hf''⟩,
      ⟨⟨hw, hw', hw''⟩, hr.userBind, hr.blocklist, hr.whitelist⟩, hlog⟩

theorem loadIpAddress_ends (root : Y.Node) :
    (Y.loadIpAddress root : Loader B S Unit).Ends
      (checkWhitelist B (Y.strings root "IP_Address" "whitelist")) := by
  unfold strings
  refine Raising.Ends.ofOption (fun h => by rw [h]; rfl) fun node hnode => ?_
  refine Raising.Ends.ofOption (fun h => by rw [hnode, Option.bind_some, h]; rfl) fun list hlist => ?_
  refine Raising.Ends.ofOption (fun h => ?_) fun size hsize => ?_
  · rw [hnode, Option.bind_some, hlist, Option.bind_some, h]
    rfl
  · rw [hnode, Option.bind_some, hlist, Option.bind_some, hsize]
    exact forM_loadIpEntry_ends _ _

theorem loadConfigFile_of_ends {fileText : String} {r : Except LoadException Unit}
    (h : (Y.loadRoot fileText : Loader B S Unit).Ends r) (g : LoadedConfig B S) :
    (Y.loadConfigFile (some fileText) g).1 = finish r := by
  have hg := h g
  unfold loadConfigFile
  dsimp only
  rcases hx : (Y.loadRoot fileText : Loader B S Unit).execute g with ⟨r', g'⟩
  rw [hx] at hg
  rw [← hg]
  rcases r' with (_ | _) | ⟨⟩
  · rfl
  · rfl
  · rfl

theorem loadRoot_ends_yaml {fileText : String}
    (h : ∀ root, Y.load fileText = some root → ¬ Y.Readable root) :
    (Y.loadRoot fileText : Loader B S Unit).Ends (.error .yaml) := by
  unfold loadRoot
  cases hroot : Y.load fileText with
  | none => exact fun _ => rfl
  | some root =>
    have hprefix := (Y.requires_readable (B := B) (S := S) root).raises (h root hroot)
    have hall := hprefix.bind_error (f := fun _ => Y.loadIpAddress root)
    simp only [bind_assoc] at hall
    exact hall

theorem loadRoot_ends {fileText : String} {root : Y.Node} (hroot : Y.load fileText = some root)
    (hreadable : Y.Readable root) :
    (Y.loadRoot fileText : Loader B S Unit).Ends
      (checkWhitelist B (Y.strings root "IP_Address" "whitelist")) := by
  have hprefix := (Y.requires_readable (B := B) (S := S) root).ends hreadable
  have hall := hprefix.bind_ok (f := fun _ => Y.loadIpAddress root) (Y.loadIpAddress_ends root)
  simp only [bind_assoc] at hall
  unfold loadRoot
  rw [hroot]
  exact hall

/-- What a loaded configuration needs of the document. -/
structure Valid (B : Boost) (root : Y.Node) : Prop where
  scalars : ∀ r ∈ requiredScalars, Y.HasScalar root r
  ipWhitelist : ∃ entries, Y.strings root "IP_Address" "whitelist" = some entries ∧
    ∀ entry ∈ entries, ∃ expression, entry = some expression ∧ B.regexAccepts expression = true
  userBind : ∃ pairs, Y.userBind root = some pairs ∧
    ∀ it ∈ pairs, ∃ bindName, Y.asString it.2 = some bindName ∧ B.regexAccepts bindName = true

/-- Loading returns, and returns `true` for a valid document only. -/
structure Decides (B : Boost) (file : Option String) (result : Except RegexError Bool) : Prop where
  returns : ∃ loaded, result = .ok loaded
  valid : result = .ok true → ∃ fileText root, file = some fileText ∧ Y.load fileText = some root ∧
    Y.Valid B root

theorem decides_false (B : Boost) (file : Option String) : Y.Decides B file (.ok false) where
  returns := ⟨false, rfl⟩
  valid h := by cases h

def BindNamesValid (B : Boost) (pairs : List (Y.Node × Y.Node)) : Prop :=
  ∀ it ∈ pairs, ∀ bindName, Y.asString it.2 = some bindName → B.regexAccepts bindName = true

theorem valid_iff {root : Y.Node} (hreadable : Y.Readable root)
    {pairs : List (Y.Node × Y.Node)} (hpairs : Y.userBind root = some pairs)
    {entries : List (Option String)}
    (hentries : Y.strings root "IP_Address" "whitelist" = some entries)
    (hvalid : ConvertedEntriesValid B entries) (hconverted : none ∉ entries) :
    Y.Valid B root ↔ Y.BindNamesValid B pairs := by
  constructor
  · intro h it hit bindName hname
    obtain ⟨pairs', hpairs', hnames⟩ := h.userBind
    cases hpairs.symm.trans hpairs'
    obtain ⟨bindName', hname', haccepts⟩ := hnames it hit
    cases hname.symm.trans hname'
    exact haccepts
  · intro hnames
    refine ⟨hreadable.scalars, ⟨entries, hentries, ?_⟩, pairs, hpairs, ?_⟩
    · have hall : ∀ entry ∈ entries, entry.isSome = true := by
        intro entry hentry
        rw [Option.isSome_iff_ne_none]
        rintro rfl
        exact hconverted hentry
      intro entry hentry
      obtain ⟨expression, rfl⟩ := Option.isSome_iff_exists.mp (hall entry hentry)
      refine ⟨expression, rfl, hvalid expression ?_⟩
      rw [List.takeWhile_eq_self_iff.mpr hall]
      exact hentry
    · intro it hit
      obtain ⟨pairs', hpairs', hstrings⟩ := hreadable.userBind
      cases hpairs.symm.trans hpairs'
      obtain ⟨-, bindName, hname⟩ := hstrings it hit
      exact ⟨bindName, hname, hnames it hit bindName hname⟩

/-- A document that is not readable up to its expressions for addresses is not loaded. -/
theorem decides_of_not_readable {fileText : String}
    (h : ∀ root, Y.load fileText = some root → ¬ Y.Readable root) (g : LoadedConfig B S) :
    Y.Decides B (some fileText) (Y.loadConfigFile (some fileText) g).1 := by
  rw [Y.loadConfigFile_of_ends (Y.loadRoot_ends_yaml h)]
  exact Y.decides_false B _

theorem loadConfigFile_of_readable {fileText : String} {root : Y.Node}
    (hroot : Y.load fileText = some root) (hreadable : Y.Readable root) (g : LoadedConfig B S) :
    (Y.loadConfigFile (some fileText) g).1 =
      finish (checkWhitelist B (Y.strings root "IP_Address" "whitelist")) :=
  Y.loadConfigFile_of_ends (Y.loadRoot_ends hroot hreadable) g

theorem decides_iff_of_readable {fileText : String} {root : Y.Node}
    (hroot : Y.load fileText = some root) (hreadable : Y.Readable root)
    {pairs : List (Y.Node × Y.Node)} (hpairs : Y.userBind root = some pairs)
    {entries : List (Option String)}
    (hentries : Y.strings root "IP_Address" "whitelist" = some entries) (g : LoadedConfig B S) :
    Y.Decides B (some fileText) (Y.loadConfigFile (some fileText) g).1 ↔
      ConvertedEntriesValid B entries ∧ (none ∉ entries → Y.BindNamesValid B pairs) := by
  rw [Y.loadConfigFile_of_readable hroot hreadable, hentries, checkWhitelist]
  constructor
  · intro h
    have hvalid : ConvertedEntriesValid B entries := by
      by_contra hinvalid
      obtain ⟨err, herr⟩ := checkEntries_of_not_valid hinvalid
      obtain ⟨loaded, hloaded⟩ := h.returns
      rw [herr] at hloaded
      cases hloaded
    refine ⟨hvalid, fun hconverted => ?_⟩
    have htrue : finish (checkEntries B entries) = .ok true := by
      rw [checkEntries_of_valid hvalid, if_neg hconverted]
      rfl
    obtain ⟨fileText', root', hfile, hroot', hdocument⟩ := h.valid htrue
    cases hfile
    cases hroot.symm.trans hroot'
    exact (Y.valid_iff hreadable hpairs hentries hvalid hconverted).mp hdocument
  · rintro ⟨hvalid, hnames⟩
    rw [checkEntries_of_valid hvalid]
    by_cases hconverted : none ∈ entries
    · rw [if_pos hconverted]
      exact Y.decides_false B _
    · rw [if_neg hconverted]
      refine ⟨⟨true, rfl⟩, fun _ => ⟨fileText, root, rfl, hroot, ?_⟩⟩
      exact (Y.valid_iff hreadable hpairs hentries hvalid hconverted).mpr (hnames hconverted)

end YamlCpp

/-- Loading decides the validity of a file if and only if, where all before the expressions for
addresses is readable, those that convert are valid, and, where they all convert, so are the bound
names. -/
theorem load_decides_iff (Y : YamlCpp) (file : Option String) (g : LoadedConfig B S) :
    Y.Decides B file (Y.loadConfigFile file g).1 ↔
      ∀ fileText root entries pairs, file = some fileText → Y.load fileText = some root →
        Y.Readable root → Y.strings root "IP_Address" "whitelist" = some entries →
        Y.userBind root = some pairs →
        ConvertedEntriesValid B entries ∧ (none ∉ entries → Y.BindNamesValid B pairs) := by
  constructor
  · rintro h fileText root entries pairs rfl hroot hreadable hentries hpairs
    exact (Y.decides_iff_of_readable hroot hreadable hpairs hentries g).mp h
  · intro h
    cases file with
    | none => exact Y.decides_false B none
    | some fileText =>
      by_cases hfails : ∀ root, Y.load fileText = some root → ¬ Y.Readable root
      · exact Y.decides_of_not_readable hfails g
      · push Not at hfails
        obtain ⟨root, hroot, hreadable⟩ := hfails
        obtain ⟨pairs, hpairs, -⟩ := hreadable.userBind
        cases hentries : Y.strings root "IP_Address" "whitelist" with
        | none =>
          rw [Y.loadConfigFile_of_readable hroot hreadable, hentries]
          exact Y.decides_false B _
        | some entries =>
          have hholds := h fileText root entries pairs rfl hroot hreadable hentries hpairs
          exact (Y.decides_iff_of_readable hroot hreadable hpairs hentries g).mpr hholds

/-- The documents of one sample file. -/
inductive SampleNode
  | invalid
  | int (value : ℤ)
  | bool (value : Bool)
  | string (value : String)
  | list (items : List SampleNode)
  | map (pairs : List (String × SampleNode))

def SampleNode.subscript (key : String) : SampleNode → Option SampleNode
  | .map pairs => some ((pairs.lookup key).getD .invalid)
  | _ => none

/-- The library on the one file `fileText`, which is the document `root`. -/
def sampleYaml (fileText : String) (root : SampleNode) : YamlCpp where
  Node := SampleNode
  load text := if text = fileText then some root else none
  subscript node key := node.subscript key
  constSubscript node key := node.subscript key
  item
    | .list items, i => items[i]?
    | _, _ => none
  size
    | .invalid => none
    | .list items => some items.length
    | .map pairs => some pairs.length
    | _ => some 0
  pairs
    | .list items => some (items.map fun _ => (.invalid, .invalid))
    | .map pairs => some (pairs.map fun pair => (.string pair.1, pair.2))
    | _ => some []
  asInt
    | .int value => if IsInt32 value then some value else none
    | _ => none
  asBool
    | .bool value => some value
    | _ => none
  asString
    | .int value => some (toString value)
    | .bool value => some (toString value)
    | .string value => some value
    | _ => none
  asInt_isInt32 node value h := by
    cases node with
    | int v =>
      dsimp only at h
      split at h
      · cases h
        assumption
      · cases h
    | _ => cases h

def sampleText (bindName expression : String) : String :=
  "block:\n  block_time: 600\n  random_delay_min: 0\n  random_delay_max: 30\n" ++
  "failban:\n  enable: true\n  threshold: 3\n  expire_time: 1200\n" ++
  "workstation_name:\n  enable_check: true\n  check_bind: true\n  auto_bind: false\n" ++
  "  user_bind:\n    alice: \"" ++ bindName ++ "\"\n  blocklist:\n    - \"-\"\n" ++
  "  whitelist:\n    - DESKTOP-0000000\nlog:\n  level: info\n" ++
  "IP_Address:\n  whitelist:\n    - \"" ++ expression ++ "\"\n"

def sampleRoot (bindName expression : String) : SampleNode :=
  .map [
    ("block", .map [("block_time", .int 600), ("random_delay_min", .int 0),
      ("random_delay_max", .int 30)]),
    ("failban", .map [("enable", .bool true), ("threshold", .int 3), ("expire_time", .int 1200)]),
    ("workstation_name", .map [("enable_check", .bool true), ("check_bind", .bool true),
      ("auto_bind", .bool false), ("user_bind", .map [("alice", .string bindName)]),
      ("blocklist", .list [.string "-"]), ("whitelist", .list [.string "DESKTOP-0000000"])]),
    ("log", .map [("level", .string "info")]),
    ("IP_Address", .map [("whitelist", .list [.string expression])])]

theorem sampleYaml_load (fileText : String) (root : SampleNode) :
    (sampleYaml fileText root).load fileText = some root := if_pos rfl

def sampleSpdlog : Spdlog := ⟨String, id⟩

/-- The configuration before the file is read. -/
def sampleConfig : LoadedConfig Boost.plain sampleSpdlog := { mLevel := "debug" }

def sampleFile (bindName expression : String) : YamlCpp :=
  sampleYaml (sampleText bindName expression) (sampleRoot bindName expression)

def loadSample (bindName expression : String) : Except RegexError Bool :=
  ((sampleFile bindName expression).loadConfigFile (some (sampleText bindName expression))
    sampleConfig).1

theorem loadSample_unclosed_expression : loadSample "PC1" "[" = .error ⟨"["⟩ := by
  unfold loadSample YamlCpp.loadConfigFile YamlCpp.loadRoot sampleFile
  dsimp only
  rw [sampleYaml_load]
  rfl

theorem loadSample_unclosed_bindName : loadSample "[" "10" = .ok true := by
  unfold loadSample YamlCpp.loadConfigFile YamlCpp.loadRoot sampleFile
  dsimp only
  rw [sampleYaml_load]
  rfl

/-- An expression for addresses that is not valid raises an exception that nothing catches, and a
bound name that is not valid is loaded. -/
theorem unclosed_brackets_are_not_decided :
    (loadSample "PC1" "[" = .error ⟨"["⟩ ∧ ¬ (sampleFile "PC1" "[").Decides Boost.plain
        (some (sampleText "PC1" "[")) (loadSample "PC1" "[")) ∧
      loadSample "[" "10" = .ok true ∧ ¬ (sampleFile "[" "10").Decides Boost.plain
        (some (sampleText "[" "10")) (loadSample "[" "10") := by
  refine ⟨⟨loadSample_unclosed_expression, fun h => ?_⟩, loadSample_unclosed_bindName, fun h => ?_⟩
  · obtain ⟨loaded, hloaded⟩ := h.returns
    rw [loadSample_unclosed_expression] at hloaded
    cases hloaded
  · obtain ⟨fileText, root, hfile, hroot, hvalid⟩ := h.valid loadSample_unclosed_bindName
    cases hfile
    cases (sampleYaml_load _ _).symm.trans hroot
    obtain ⟨pairs, hpairs, hnames⟩ := hvalid.userBind
    cases hpairs
    obtain ⟨bindName, hname, haccepts⟩ := hnames _ List.mem_cons_self
    cases hname
    exact absurd haccepts (by decide)

end RDPBlocker

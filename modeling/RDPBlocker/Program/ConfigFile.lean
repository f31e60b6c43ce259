import RDPBlocker.Foundation.Raising
import RDPBlocker.Program.Config

/-! Loading the configuration from a YAML document. -/
namespace RDPBlocker
open Foundation

/-- The calls of yaml-cpp; `none` is a thrown `YAML::Exception`. A node may be the invalid one. -/
structure YamlCpp where
  Node : Type
  load : String → Option Node
  /-- `operator[]` of a `Node`, and of a `const Node`. -/
  subscript : Node → String → Option Node
  constSubscript : Node → String → Option Node
  /-- `operator[]` of a `const Node` with an index, for an index below `size`. -/
  item : Node → ℕ → Option Node
  size : Node → Option ℕ
  /-- What an iteration from `begin` to `end` gives. -/
  pairs : Node → Option (List (Node × Node))
  asInt : Node → Option ℤ
  asBool : Node → Option Bool
  asString : Node → Option String
  asInt_isInt32 : ∀ node value, asInt node = some value → IsInt32 value

/-- `spdlog::level`. -/
structure Spdlog where
  LevelEnum : Type
  fromStr : String → LevelEnum

/-- The parts of `g_config` that loading writes. -/
structure LoadedConfig (B : Boost) (S : Spdlog) extends ApplicationConfig B where
  mLevel : S.LevelEnum

inductive LoadException
  | yaml
  | regex (err : RegexError)
deriving DecidableEq, Repr

variable {B : Boost} {S : Spdlog}

abbrev Loader (B : Boost) (S : Spdlog) := Raising LoadException (LoadedConfig B S)

def yaml {α : Type} (value : Option α) : Loader B S α := Raising.ofOption .yaml value

/-- `ApplicationLoggerConfig::set_level`. -/
def setLevel (g : LoadedConfig B S) (levelString : String) : LoadedConfig B S :=
  { g with mLevel := S.fromStr (levelString.map Char.toLower) }

/-- The constructor of `boost::regex`. -/
def newRegex (expression : String) : Loader B S (Regex B) :=
  if h : B.regexAccepts expression = true then pure ⟨expression, h⟩
  else throw (.regex ⟨expression⟩)

def loadIpEntry (entry : Option String) : Loader B S Unit := do
  let expression ← yaml entry
  let expressionObject ← newRegex expression
  modify fun g => { g with mIpConfig.mWhitelist := g.mIpConfig.mWhitelist ++ [expressionObject] }

namespace YamlCpp
variable (Y : YamlCpp)

/-- `node[key].as<int>()` on a `const Node`, and so on. -/
def intAt (node : Y.Node) (key : String) : Option ℤ := (Y.constSubscript node key).bind Y.asInt

def boolAt (node : Y.Node) (key : String) : Option Bool :=
  (Y.constSubscript node key).bind Y.asBool

def stringAt (node : Y.Node) (key : String) : Option String :=
  (Y.constSubscript node key).bind Y.asString

def stringItem (node : Y.Node) (i : ℕ) : Option String := (Y.item node i).bind Y.asString

def loadBlock (rootNode : Y.Node) : Loader B S Unit := do
  let nodeBlock ← yaml (Y.subscript rootNode "block")
  let blockTime ← yaml (Y.intAt nodeBlock "block_time")
  modify fun g => { g with mBlock.mBlockTime := blockTime }
  let randomDelayMin ← yaml (Y.intAt nodeBlock "random_delay_min")
  modify fun g => { g with mBlock.mRandomDelayMin := randomDelayMin }
  let randomDelayMax ← yaml (Y.intAt nodeBlock "random_delay_max")
  modify fun g => { g with mBlock.mRandomDelayMax := randomDelayMax }

def loadFailBan (rootNode : Y.Node) : Loader B S Unit := do
  let nodeFailban ← yaml (Y.subscript rootNode "failban")
  let enable ← yaml (Y.boolAt nodeFailban "enable")
  modify fun g => { g with mFailBan.mEnable := enable }
  let threshold ← yaml (Y.intAt nodeFailban "threshold")
  modify fun g => { g with mFailBan.mThreshold := threshold }
  let expireTime ← yaml (Y.intAt nodeFailban "expire_time")
  modify fun g => { g with mFailBan.mExpireTime := expireTime }

def loadUserBind (nodeWorkstationName : Y.Node) : Loader B S Unit := do
  let nodeUserBind ← yaml (Y.constSubscript nodeWorkstationName "user_bind")
  let pairs ← yaml (Y.pairs nodeUserBind)
  pairs.forM fun it => do
    let userName ← yaml (Y.asString it.1)
    let bindName ← yaml (Y.asString it.2)
    modify fun g =>
      { g with mWorkstationNameConfig := g.mWorkstationNameConfig.createBindRecord userName bindName }

/-- The two loops over lists of workstation names. -/
def loadNames (nodeWorkstationName : Y.Node) (key : String)
    (insert : String → LoadedConfig B S → LoadedConfig B S) : Loader B S Unit := do
  let nodeNames ← yaml (Y.constSubscript nodeWorkstationName key)
  let size ← yaml (Y.size nodeNames)
  (List.range size).forM fun i => do
    let workstationName ← yaml (Y.stringItem nodeNames i)
    modify (insert workstationName)

def loadWorkstationName (rootNode : Y.Node) : Loader B S Unit := do
  let nodeWorkstationName ← yaml (Y.subscript rootNode "workstation_name")
  let enableCheck ← yaml (Y.boolAt nodeWorkstationName "enable_check")
  modify fun g => { g with mWorkstationNameConfig.mEnableCheck := enableCheck }
  let checkBind ← yaml (Y.boolAt nodeWorkstationName "check_bind")
  modify fun g => { g with mWorkstationNameConfig.mCheckBind := checkBind }
  let autoBind ← yaml (Y.boolAt nodeWorkstationName "auto_bind")
  modify fun g => { g with mWorkstationNameConfig.mAutoBind := autoBind }
  Y.loadUserBind nodeWorkstationName
  Y.loadNames nodeWorkstationName "blocklist" fun name g =>
    { g with mWorkstationNameConfig.mBlocklist := insert name g.mWorkstationNameConfig.mBlocklist }
  Y.loadNames nodeWorkstationName "whitelist" fun name g =>
    { g with mWorkstationNameConfig.mWhitelist := insert name g.mWorkstationNameConfig.mWhitelist }

def loadLog (rootNode : Y.Node) : Loader B S Unit := do
  let nodeLogs ← yaml (Y.subscript rootNode "log")
  let levelString ← yaml (Y.stringAt nodeLogs "level")
  modify fun g => setLevel g levelString

def loadIpAddress (rootNode : Y.Node) : Loader B S Unit := do
  let nodeIpAddress ← yaml (Y.subscript rootNode "IP_Address")
  let nodeIpWhitelist ← yaml (Y.constSubscript nodeIpAddress "whitelist")
  let size ← yaml (Y.size nodeIpWhitelist)
  (List.range size).forM fun i => loadIpEntry (Y.stringItem nodeIpWhitelist i)

/-- The body of the `try` block. -/
def loadRoot (fileText : String) : Loader B S Unit := do
  let rootNode ← yaml (Y.load fileText)
  Y.loadBlock rootNode
  Y.loadFailBan rootNode
  Y.loadWorkstationName rootNode
  Y.loadLog rootNode
  Y.loadIpAddress rootNode

/-- `file` is what `read_binary_file` reads, if it does. The `catch` clause is for
`YAML::Exception` only; what was written before the exception stays. -/
def loadConfigFile (file : Option String) (g : LoadedConfig B S) :
    Except RegexError Bool × LoadedConfig B S :=
  match file with
  | none => (.ok false, g)
  | some fileText =>
    match (Y.loadRoot fileText).execute g with
    | (.ok (), g) => (.ok true, g)
    | (.error .yaml, g) => (.ok false, g)
    | (.error (.regex err), g) => (.error err, g)

end YamlCpp
end RDPBlocker

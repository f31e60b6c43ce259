import RDPBlocker.Program.Config
import RDPBlocker.Foundation.Mealy

/-! The succeeded-login thread. It writes the bind table of the configuration, and it has no
exception handler. -/
namespace RDPBlocker
open Foundation
variable {B : Boost}

/-- What one iteration of the loop reads: the random delay it would draw, and the decoded
event. -/
structure AuthSucceedInput where
  randomDelay : ℤ
  eventAttr : EventAttr

namespace AuthSucceedInput

def logonType (i : AuthSucceedInput) : String := i.eventAttr.get "LogonType"

def workstationName (i : AuthSucceedInput) : String := i.eventAttr.get "WorkstationName"

def userName (i : AuthSucceedInput) : String := i.eventAttr.get "TargetUserName"

def ipAddress (i : AuthSucceedInput) : String := i.eventAttr.get "IpAddress"

end AuthSucceedInput

def blockRemoteAddressesWhenLoginSucceed (g : ApplicationConfig B) (randomDelay : ℤ)
    (remoteAddress : String) : Except MatchException (Option BlockRequest) :=
  if isVaildIpAddress B remoteAddress = false then .ok none
  else
    match g.mIpConfig.isWhiteAddress remoteAddress with
    | .error err => .error err
    | .ok true => .ok none
    | .ok false => .ok (some ⟨remoteAddress, g.mBlock.blockTime randomDelay⟩)

def ApplicationConfig.createBindRecord (g : ApplicationConfig B)
    (username workstationName : String) : ApplicationConfig B :=
  { g with mWorkstationNameConfig :=
      g.mWorkstationNameConfig.createBindRecord username workstationName }

/-- One iteration of `process_rdp_auth_succeed_event`, from the decoded event on. What it wrote
to the configuration stays written when the iteration ends in an exception. -/
def processRdpAuthSucceedEvent (g : ApplicationConfig B) (i : AuthSucceedInput) :
    ApplicationConfig B × Except MatchException (Option BlockRequest) :=
  let logonType := i.logonType
  let workstationName := i.workstationName
  let userName := i.userName
  let remoteIpAddress := i.ipAddress
  if logonType ≠ "3" then (g, .ok none)
  else if remoteIpAddress = "-" ∨ remoteIpAddress = "" then (g, .ok none)
  else if g.mWorkstationNameConfig.isWhiteName workstationName = true then (g, .ok none)
  else if g.mWorkstationNameConfig.isBlockName workstationName = true then
    (g, blockRemoteAddressesWhenLoginSucceed g i.randomDelay remoteIpAddress)
  else if g.mWorkstationNameConfig.mCheckBind = false then (g, .ok none)
  else
    let g :=
      if g.mWorkstationNameConfig.existsBindRecord userName = false then
        if g.mWorkstationNameConfig.mAutoBind = true then
          g.createBindRecord userName workstationName
        else g
      else g
    match g.mWorkstationNameConfig.checkBindRecord B userName workstationName with
    | .error e => (g, .error e)
    | .ok true => (g, .ok none)
    | .ok false => (g, blockRemoteAddressesWhenLoginSucceed g i.randomDelay remoteIpAddress)

/-- The thread between two iterations. -/
structure AuthSucceedState (B : Boost) where
  gConfig : ApplicationConfig B
  alive : Bool

/-- An exception leaves the loop and ends the process. -/
def AuthSucceedState.step (s : AuthSucceedState B) (i : AuthSucceedInput) :
    AuthSucceedState B × Option BlockRequest :=
  if s.alive = true then
    match processRdpAuthSucceedEvent s.gConfig i with
    | (g, .ok request) => (⟨g, true⟩, request)
    | (g, .error _) => (⟨g, false⟩, none)
  else (s, none)

/-- The thread after a run of the loop. -/
def authSucceedState (g : ApplicationConfig B) (events : List AuthSucceedInput) :
    AuthSucceedState B :=
  Mealy.final AuthSucceedState.step ⟨g, true⟩ events

abbrev AuthSucceedStep (B : Boost) :=
  Mealy.Transition (AuthSucceedState B) AuthSucceedInput (Option BlockRequest)

def authSucceedTrace (g : ApplicationConfig B) (events : List AuthSucceedInput) :
    List (AuthSucceedStep B) :=
  Mealy.trace AuthSucceedState.step ⟨g, true⟩ events

end RDPBlocker

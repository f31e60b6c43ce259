import RDPBlocker.Guarantees.FailBan
import RDPBlocker.Guarantees.Intervals
import RDPBlocker.Guarantees.Binding
import RDPBlocker.Guarantees.Justification
import RDPBlocker.Guarantees.Agreement
import RDPBlocker.Guarantees.Restart
import RDPBlocker.Guarantees.FirewallCalls
import RDPBlocker.Guarantees.EventQueue
import RDPBlocker.Guarantees.SingleInstance
import RDPBlocker.Guarantees.ConfigFile
import RDPBlocker.Guarantees.BlockTime
import RDPBlocker.Guarantees.EventDecoding
import RDPBlocker.Foundation.Throwing
import RDPBlocker.Foundation.Noninterference
import RDPBlocker.Guarantees.StatusHalves
import RDPBlocker.Foundation.Ownership
import RDPBlocker.Program.HandleWrapper
import RDPBlocker.Refinement.HandleOwnership
import RDPBlocker.Guarantees.HandleOwnership
import RDPBlocker.Foundation.Pattern
import RDPBlocker.Foundation.PatternSyntax
import RDPBlocker.Program.Whitelist
import RDPBlocker.Foundation.Decimal
import RDPBlocker.Guarantees.Whitelist
import RDPBlocker.Program.Main
import RDPBlocker.Guarantees.StartUp
import RDPBlocker.Program.Machine
import RDPBlocker.Refinement.Machine
import RDPBlocker.Guarantees.RunningInstance
import RDPBlocker.Foundation.Log
import RDPBlocker.Program.SubscribeSystemEvent
import RDPBlocker.Program.Service
import RDPBlocker.Refinement.Service
import RDPBlocker.Guarantees.Service
import RDPBlocker.Guarantees.FailingCalls
import RDPBlocker.Guarantees.Settling
import RDPBlocker.Spec.Bans
import RDPBlocker.Refinement.Policies
import RDPBlocker.Guarantees.Policies
import RDPBlocker.Guarantees.Memory
import RDPBlocker.Guarantees.ConfigDocument
import RDPBlocker.Guarantees.Leftovers
import RDPBlocker.Guarantees.Backlog

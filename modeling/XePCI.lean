import XePCI.Prog
import XePCI.Pool
import XePCI.HwOffsets
import XePCI.BootArgs
import XePCI.RefLog
import XePCI.Machine
import XePCI.ForcewakeGuard
import XePCI.CommandStream
import XePCI.Service
import XePCI.UserClient
import XePCI.Footprint
import XePCI.Session
import XePCI.MmioBounds
import XePCI.SafeModes
import XePCI.Objects
import XePCI.BufferObjects
import XePCI.CreationRaces
import XePCI.GuardRaces
import XePCI.BootGrammar
import XePCI.Lifecycle
import XePCI.UnmapRaces
import XePCI.Noninterference
import XePCI.PowerController
import XePCI.Running
import XePCI.Xectl
import XePCI.RequestSizes
import XePCI.ArgumentArrays
import XePCI.Verdicts
import XePCI.RingTrace
import XePCI.Coupling
import XePCI.Observability
import XePCI.DeviceInfluence
import XePCI.Budget
import XePCI.CallBudgets
import XePCI.RegistryProtocol
import XePCI.RegistryRaces
import XePCI.ClientBuffers
import XePCI.Specification
import XePCI.AbstractService
import XePCI.Realizability
import XePCI.Linearizability
import XePCI.TornReads
import XePCI.ForcewakeResidue
import XePCI.Lives
import XePCI.Modes
import XePCI.Clients
import XePCI.Transcripts
import XePCI.SideBySide
import XePCI.Processes

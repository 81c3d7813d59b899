import VcxProver.Json
import VcxProver.Types
import VcxProver.Identifiers
import VcxProver.RequestedCredentials
import VcxProver.RevStates.Defs
import VcxProver.RevStates.Trace
import VcxProver.RevStates.Stamp
import VcxProver.RevStates.Registry
import VcxProver.RevStates.Cache
import VcxProver.RevStates.Spec
import VcxProver.Filters
import VcxProver.IndyProof

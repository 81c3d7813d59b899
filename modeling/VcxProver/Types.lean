/-
  VcxProver.Types

  The records the prover core passes around: `VcxError`, the proof request
  (`ProofRequestData` with its attribute and predicate specs), the
  `CredInfoProver` records that `credential_def_identifiers` extracts and
  `build_rev_states_json` stamps, and the revocation-state cache entry. Only the
  fields that some modelled function reads or writes are kept. Timestamps are
  `u64` seconds that the code only compares and prints, so they are `Nat`.
-/
import VcxProver.Json

namespace VcxProver

/-- The error kinds the modelled code raises, and those that its collaborators
    (ledger, crypto engine) return. -/
inductive VcxErrorKind where
  | invalidJson
  | invalidProofCredentialData
  | invalidLedgerResponse
  | libndyError (code : Nat)
deriving DecidableEq, Repr

/-- `VcxError`, built by `VcxError::from_msg(kind, msg)`. -/
structure VcxError where
  fromMsg ::
  kind : VcxErrorKind
  msg : String
deriving DecidableEq, Repr

/-- `NonRevokedInterval`: optional bounds, in seconds. -/
structure NonRevokedInterval where
  «from» : Option Nat
  «to» : Option Nat
deriving DecidableEq, Repr

/-- `AttrInfo`, the spec of one requested attribute. -/
structure AttrInfo where
  nonRevoked : Option NonRevokedInterval
deriving DecidableEq, Repr

/-- `PredicateInfo`, the spec of one requested predicate. -/
structure PredicateInfo where
  nonRevoked : Option NonRevokedInterval
deriving DecidableEq, Repr

/-- `ProofRequestData`. Its two `HashMap`s are association lists. -/
structure ProofRequestData where
  requestedAttributes : List (String × AttrInfo)
  requestedPredicates : List (String × PredicateInfo)
  nonRevoked : Option NonRevokedInterval
deriving DecidableEq, Repr

/-- `CredInfoProver`: one selected credential, keyed by the request-side
    referent `requestedAttr`. -/
structure CredInfoProver where
  requestedAttr : String
  referent : String
  schemaId : String
  credDefId : String
  revRegId : Option String
  credRevId : Option String
  revocationInterval : Option NonRevokedInterval
  tailsFile : Option String
  timestamp : Option Nat
deriving DecidableEq, Repr

/-- `RevState`: a cached witness and the ledger timestamp it is valid at. -/
structure RevState where
  timestamp : Nat
  value : String
deriving DecidableEq, Repr

/-- `RevRegCache`, the value stored under `(rev_reg_id, cred_rev_id)`. -/
structure RevRegCache where
  revState : Option RevState
deriving DecidableEq, Repr

end VcxProver

/-
  VcxProver.IndyProof

  `generate_indy_proof` (disclosed_proof.rs), the prover core end to end.
  It deserialises the proof request and extracts the selected credentials.
  It builds their revocation states, which stamps them, and then the
  requested-credentials document from the stamped records. All of it goes to
  the crypto engine's proof creation. The test mock, the request's
  deserialisation, the schema and credential-definition lookups and the proof
  creation are collaborators, the fields of `ProverEnv`.

  Every timestamp that the requested credentials carry names a revocation
  state handed to the proof creation with them. Against a ledger that keeps
  registry ids, what the proof creation receives is the specification of
  `VcxProver.RevStates.Spec` on the selected credentials.
-/
import VcxProver.RevStates.Spec

namespace VcxProver

/-- The collaborators of `generate_indy_proof` beyond those of the revocation states. -/
structure ProverEnv where
  /-- `get_mock_generate_indy_proof()` -/
  mockGenerateIndyProof : Option String
  /-- `serde_json::from_str::<ProofRequestData>` -/
  parseProofRequest : String → Except String ProofRequestData
  /-- `build_schemas_json_prover` -/
  buildSchemasJsonProver : List CredInfoProver → Except VcxError Json
  /-- `build_cred_defs_json_prover` -/
  buildCredDefsJsonProver : List CredInfoProver → Except VcxError Json
  /-- `settings::DEFAULT_LINK_SECRET_ALIAS` -/
  linkSecretAlias : String
  /-- `anoncreds::libindy_prover_create_proof` -/
  proverCreateProof : String → Json → String → Json → Json → Option Json → Except VcxError String

/-- A fallible step that leaves the world alone, as `?` runs it. -/
def liftExcept {α : Type} : Except VcxError α → WorldM α
  | .ok a => pure a
  | .error e => throw e

/-- `generate_indy_proof` -/
def generateIndyProof (penv : ProverEnv) (env : Env) (parser : JsonParser)
    (credentials selfAttestedAttrs proofReqDataJson : String) : WorldM String :=
  match penv.mockGenerateIndyProof with
  | some mockedIndyProof => pure mockedIndyProof
  | none => do
    let proofRequest ← liftExcept ((penv.parseProofRequest proofReqDataJson).mapError fun err =>
      .fromMsg .invalidJson ("Cannot deserialize proof request: " ++ err))
    let credentialsIdentifiers ←
      liftExcept (credentialDefIdentifiers parser credentials proofRequest)
    let (revocStatesJson, credentialsIdentifiers) ←
      buildRevStatesJson env parser credentialsIdentifiers
    let requestedCredentials ← liftExcept
      (buildRequestedCredentialsJson parser credentialsIdentifiers selfAttestedAttrs proofRequest)
    let schemasJson ← liftExcept (penv.buildSchemasJsonProver credentialsIdentifiers)
    let credentialDefsJson ← liftExcept (penv.buildCredDefsJsonProver credentialsIdentifiers)
    liftExcept (penv.proverCreateProof proofReqDataJson requestedCredentials
      penv.linkSecretAlias schemasJson credentialDefsJson (some revocStatesJson))

section Lift

variable {α β : Type} {x : Except VcxError α} {f : α → WorldM β} {w : World}

theorem liftExcept_bind_of_ok {a : α} (h : x = .ok a) : (liftExcept x >>= f) w = f a w := by
  subst h
  rfl

theorem liftExcept_bind_of_error {e : VcxError} (h : x = .error e) :
    (liftExcept x >>= f) w = .error e w := by
  subst h
  rfl

theorem liftExcept_bind_eq_ok {b : β} {w' : World} :
    (liftExcept x >>= f) w = .ok b w' ↔ ∃ a, x = .ok a ∧ f a w = .ok b w' := by
  cases x <;> simp [liftExcept_bind_of_ok, liftExcept_bind_of_error]

end Lift

/-- A successful run: the mock's answer, or every stage succeeded in turn. -/
theorem generateIndyProof_eq_ok {penv : ProverEnv} {env : Env} {parser : JsonParser}
    {credentials selfAttestedAttrs proofReqDataJson proof : String} {w w' : World}
    (h : generateIndyProof penv env parser credentials selfAttestedAttrs proofReqDataJson w =
      .ok proof w') :
    (penv.mockGenerateIndyProof = some proof ∧ w' = w) ∨
    (penv.mockGenerateIndyProof = none ∧ ∃ req l revocStates l' requested schemas defs,
      penv.parseProofRequest proofReqDataJson = .ok req ∧
      credentialDefIdentifiers parser credentials req = .ok l ∧
      buildRevStatesJson env parser l w = .ok (revocStates, l') w' ∧
      buildRequestedCredentialsJson parser l' selfAttestedAttrs req = .ok requested ∧
      penv.buildSchemasJsonProver l' = .ok schemas ∧ penv.buildCredDefsJsonProver l' = .ok defs ∧
      penv.proverCreateProof proofReqDataJson requested penv.linkSecretAlias schemas defs
        (some revocStates) = .ok proof) := by
  unfold generateIndyProof at h
  rcases hm : penv.mockGenerateIndyProof with _ | m <;> rw [hm] at h
  · refine .inr ⟨rfl, ?_⟩
    obtain ⟨req, hp, h⟩ := liftExcept_bind_eq_ok.mp h
    obtain ⟨l, hl, h⟩ := liftExcept_bind_eq_ok.mp h
    obtain ⟨⟨revocStates, l'⟩, w₁, hb, h⟩ := bind_apply_eq_ok.mp h
    obtain ⟨requested, hr, h⟩ := liftExcept_bind_eq_ok.mp h
    obtain ⟨schemas, hs, h⟩ := liftExcept_bind_eq_ok.mp h
    obtain ⟨defs, hd, h⟩ := liftExcept_bind_eq_ok.mp h
    have hproof : penv.proverCreateProof proofReqDataJson requested penv.linkSecretAlias schemas
        defs (some revocStates) = .ok proof ∧ w' = w₁ := by
      revert h
      cases penv.proverCreateProof proofReqDataJson requested penv.linkSecretAlias schemas defs
        (some revocStates) <;> rintro ⟨⟩
      exact ⟨rfl, rfl⟩
    obtain ⟨hproof, rfl⟩ := hproof
    refine ⟨req, l, revocStates, l', requested, schemas, defs, ?_, hl, hb, hr, hs, hd, hproof⟩
    revert hp
    cases penv.parseProofRequest proofReqDataJson <;> rintro ⟨⟩
    rfl
  · cases h
    exact .inl ⟨rfl, rfl⟩

/-- What `generate_indy_proof` hands to the proof creation hangs together. The
    revocation-states object has one state per registry of the selected
    credentials. Every timestamp in the requested credentials names one of
    those states. -/
theorem generateIndyProof_consistent (penv : ProverEnv) (env : Env) (parser : JsonParser)
    (credentials selfAttestedAttrs proofReqDataJson proof : String) (w w' : World)
    (hmock : penv.mockGenerateIndyProof = none)
    (h : generateIndyProof penv env parser credentials selfAttestedAttrs proofReqDataJson w =
      .ok proof w') :
    ∃ req l requested schemas defs entries,
      penv.parseProofRequest proofReqDataJson = .ok req ∧
      credentialDefIdentifiers parser credentials req = .ok l ∧
      penv.proverCreateProof proofReqDataJson requested penv.linkSecretAlias schemas defs
        (some (.object entries)) = .ok proof ∧
      (entries.map Prod.fst).Nodup ∧
      (∀ R, R ∈ entries.map Prod.fst ↔ ∃ c ∈ l, c.registry = some R) ∧
      ∀ field ∈ ["requested_attributes", "requested_predicates"], ∀ k record (t : Nat),
        (requested.index field).get k = some record → record.index "timestamp" = .number t →
        ∃ R v, entries.lookup R = some (.object [(toString t, v)]) := by
  rcases generateIndyProof_eq_ok h with ⟨hm, -⟩ | ⟨-, req, l, revocStates, l', requested, schemas,
    defs, hp, hl, hb, hr, -, -, hproof⟩
  · rw [hmock] at hm
    cases hm
  have hnone := credentialDefIdentifiers_timestamp hl
  obtain ⟨acc, hinv, rfl, rfl⟩ := buildRevStatesJson_ok_inv hnone hb
  exact ⟨req, l, requested, schemas, defs, acc.rtn, hp, hl, hproof, hinv.nodup,
    fun R => by rw [← lookup_isSome_iff_mem_keys, hinv.keys],
    hinv.timestamps_named hnone hr⟩

/-- A selection with one revocable credential, for the attribute `k`. -/
def revocableSelection : Json :=
  .object [("attrs", .object [("k", .object [("credential", .object [("cred_info",
    .object [("referent", .string "r"), ("schema_id", .string "s"), ("cred_def_id", .string "d"),
      ("rev_reg_id", .string "R"), ("cred_rev_id", .string "1")])]),
    ("tails_file", .string "tails")])])]

/-- A parser for the selection, the self-attested attributes and the state. -/
def proverParser : JsonParser :=
  .ofTable [("selection", revocableSelection), ("{}", .object []), ("state", .object [])]
    (by decide)

/-- Collaborators that answer every lookup, and a request for `k` no later than 10. -/
def proverEnv : ProverEnv where
  mockGenerateIndyProof := none
  parseProofRequest _ := .ok ⟨[("k", ⟨some ⟨none, some 10⟩⟩)], [], none⟩
  buildSchemasJsonProver _ := .ok (.object [])
  buildCredDefsJsonProver _ := .ok (.object [])
  linkSecretAlias := "main"
  proverCreateProof _ _ _ _ _ _ := .ok "proof"

theorem proverEnv_consistent :
    proverEnv.mockGenerateIndyProof = none ∧
      ∃ w', generateIndyProof proverEnv boundDatingLedger proverParser "selection" "{}" "request"
          World.empty = .ok "proof" w' ∧
        ∃ (req : ProofRequestData) (l : List CredInfoProver) (requested schemas defs : Json)
          (entries : List (String × Json)), proverEnv.parseProofRequest "request" = .ok req ∧
          credentialDefIdentifiers proverParser "selection" req = .ok l ∧
          proverEnv.proverCreateProof "request" requested "main" schemas defs
            (some (.object entries)) = .ok "proof" ∧ (entries.map Prod.fst).Nodup ∧
          (∀ R, R ∈ entries.map Prod.fst ↔ ∃ c ∈ l, c.registry = some R) ∧
          ∀ field ∈ ["requested_attributes", "requested_predicates"], ∀ k record (t : Nat),
            (requested.index field).get k = some record → record.index "timestamp" = .number t →
            ∃ R v, entries.lookup R = some (.object [(toString t, v)]) :=
  ⟨rfl, _, rfl, generateIndyProof_consistent proverEnv boundDatingLedger proverParser "selection"
    "{}" "request" "proof" World.empty _ rfl rfl⟩

/-- Against a ledger that answers each delta query with the registry asked
    about, a successful `generate_indy_proof` creates the proof from the
    specified revocation states and stamps of the selected credentials, and
    leaves the world with exactly the specified calls. -/
theorem generateIndyProof_refines_spec (penv : ProverEnv) {env : Env}
    (hid : env.KeepsRegistryId) (parser : JsonParser)
    (credentials selfAttestedAttrs proofReqDataJson proof : String) (w w' : World)
    (hmock : penv.mockGenerateIndyProof = none)
    (h : generateIndyProof penv env parser credentials selfAttestedAttrs proofReqDataJson w =
      .ok proof w') :
    ∃ req l revocStates l' requested schemas defs,
      penv.parseProofRequest proofReqDataJson = .ok req ∧
      credentialDefIdentifiers parser credentials req = .ok l ∧
      revStatesSpec env parser w.cache l = some (revocStates, l') ∧
      w' = w.recordAll (specEvents env w.cache l) ∧
      buildRequestedCredentialsJson parser l' selfAttestedAttrs req = .ok requested ∧
      penv.buildSchemasJsonProver l' = .ok schemas ∧ penv.buildCredDefsJsonProver l' = .ok defs ∧
      penv.proverCreateProof proofReqDataJson requested penv.linkSecretAlias schemas defs
        (some revocStates) = .ok proof := by
  rcases generateIndyProof_eq_ok h with ⟨hm, -⟩ | ⟨-, req, l, revocStates, l', requested, schemas,
    defs, hp, hl, hb, hr, hs, hd, hproof⟩
  · rw [hmock] at hm
    cases hm
  have hspec := (buildRevStatesJson_refines_spec hid parser l
    (credentialDefIdentifiers_timestamp hl) w).2
  rw [hb] at hspec
  exact ⟨req, l, revocStates, l', requested, schemas, defs, hp, hl, hspec.1, hspec.2, hr, hs, hd,
    hproof⟩

theorem proverEnv_refines_spec :
    boundDatingLedger.KeepsRegistryId ∧ proverEnv.mockGenerateIndyProof = none ∧
      ∃ w', generateIndyProof proverEnv boundDatingLedger proverParser "selection" "{}" "request"
          World.empty = .ok "proof" w' ∧
        ∃ req l revocStates l' requested schemas defs,
          proverEnv.parseProofRequest "request" = .ok req ∧
          credentialDefIdentifiers proverParser "selection" req = .ok l ∧
          revStatesSpec boundDatingLedger proverParser World.empty.cache l =
            some (revocStates, l') ∧
          w' = World.empty.recordAll (specEvents boundDatingLedger World.empty.cache l) ∧
          buildRequestedCredentialsJson proverParser l' "{}" req = .ok requested ∧
          proverEnv.buildSchemasJsonProver l' = .ok schemas ∧
          proverEnv.buildCredDefsJsonProver l' = .ok defs ∧
          proverEnv.proverCreateProof "request" requested "main" schemas defs
            (some revocStates) = .ok "proof" :=
  ⟨boundDatingLedger_keepsRegistryId, rfl, _, rfl, generateIndyProof_refines_spec proverEnv
    boundDatingLedger_keepsRegistryId proverParser "selection" "{}" "request" "proof" World.empty _
    rfl rfl⟩

end VcxProver

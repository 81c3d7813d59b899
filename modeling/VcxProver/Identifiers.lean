/-
  VcxProver.Identifiers

  `credential_def_identifiers` and `_get_revocation_interval`
  (disclosed_proof.rs): the selected-credentials document is parsed, and every
  entry of its `attrs` object becomes one `CredInfoProver`, or the loop returns
  early with `InvalidProofCredentialData`. The main result characterises the
  outcome for every document and request: which error, when it succeeds, and the
  exact list it returns.
-/
import VcxProver.Types

namespace VcxProver

/-! ## `mapM` in `Except` -/

section MapM

variable {α β ε : Type} {f : α → Except ε β}

theorem mapM_eq_map_of_ok {g : α → β} :
    ∀ {l : List α}, (∀ x ∈ l, f x = .ok (g x)) → l.mapM f = .ok (l.map g)
  | [], _ => rfl
  | x :: l, h => by
    rw [List.mapM_cons, h x (List.mem_cons_self x l),
      mapM_eq_map_of_ok fun y hy => h y (List.mem_cons_of_mem x hy)]
    rfl

theorem forall_ok_of_mapM_eq_ok :
    ∀ {l : List α} {r : List β}, l.mapM f = .ok r → ∀ x ∈ l, ∃ y, f x = .ok y
  | [], _, _ => by simp
  | x :: l, r, h => by
    rw [List.mapM_cons] at h
    cases hx : f x with
    | error e => rw [hx] at h; cases h
    | ok y =>
      cases hl : l.mapM f with
      | error e => rw [hx, hl] at h; cases h
      | ok ys =>
        intro z hz
        rcases List.mem_cons.mp hz with rfl | hz
        · exact ⟨y, hx⟩
        · exact forall_ok_of_mapM_eq_ok hl z hz

end MapM

/-! ## `_get_revocation_interval` -/

/-- `_get_revocation_interval`: the `non_revoked` of the referent's attribute
    spec, else of its predicate spec, falling back to the request's. -/
def getRevocationInterval (attrName : String) (proofReq : ProofRequestData) :
    Except VcxError (Option NonRevokedInterval) :=
  match proofReq.requestedAttributes.lookup attrName with
  | some attr => .ok (attr.nonRevoked.or (proofReq.nonRevoked.or none))
  | none =>
    match proofReq.requestedPredicates.lookup attrName with
    | some attr => .ok (attr.nonRevoked.or (proofReq.nonRevoked.or none))
    | none => .error (.fromMsg .invalidProofCredentialData ("Attribute not found for: " ++ attrName))

/-- `k` is a referent of the request: a key of its attributes or predicates. -/
def ProofRequestData.Names (req : ProofRequestData) (k : String) : Prop :=
  k ∈ req.requestedAttributes.map Prod.fst ∨ k ∈ req.requestedPredicates.map Prod.fst

instance (req : ProofRequestData) (k : String) : Decidable (req.Names k) :=
  inferInstanceAs (Decidable (_ ∨ _))

/-- The window the request assigns to referent `k`: the `non_revoked` of `k`'s
    own spec when set (the attribute's if `k` names one, else the predicate's),
    else the request-level one. -/
def requestedNonRevoked (req : ProofRequestData) (k : String) : Option NonRevokedInterval :=
  let own := match req.requestedAttributes.lookup k with
    | some attr => attr.nonRevoked
    | none => (req.requestedPredicates.lookup k).bind PredicateInfo.nonRevoked
  own.or req.nonRevoked

/-- `_get_revocation_interval` resolves exactly the referents of the request,
    to the window `requestedNonRevoked` names. -/
theorem getRevocationInterval_eq (k : String) (req : ProofRequestData) :
    getRevocationInterval k req =
      if req.Names k then .ok (requestedNonRevoked req k)
      else .error (.fromMsg .invalidProofCredentialData ("Attribute not found for: " ++ k)) := by
  unfold getRevocationInterval requestedNonRevoked ProofRequestData.Names
  cases ha : req.requestedAttributes.lookup k with
  | some a =>
    have : k ∈ req.requestedAttributes.map Prod.fst := lookup_isSome_iff_mem_keys.mp (by simp [ha])
    simp only [this, true_or, if_true, Option.or_none]
  | none =>
    rw [lookup_eq_none_iff_not_mem_keys] at ha
    cases hp : req.requestedPredicates.lookup k with
    | some p =>
      have : k ∈ req.requestedPredicates.map Prod.fst := lookup_isSome_iff_mem_keys.mp (by simp [hp])
      simp only [this, or_true, if_true, Option.or_none, Option.some_bind]
    | none => simp [ha, lookup_eq_none_iff_not_mem_keys.mp hp]

/-! ## `credential_def_identifiers` -/

/-- `value["credential"]["cred_info"][field].as_str()`. -/
def credInfoStr (value : Json) (field : String) : Option String :=
  (((value.index "credential").index "cred_info").index field).asStr

/-- One iteration of the loop of `credential_def_identifiers`, for the entry
    `requestedAttr ↦ value` of `attrs`. -/
def credInfoOfEntry (proofReq : ProofRequestData) (requestedAttr : String) (value : Json) :
    Except VcxError CredInfoProver :=
  match credInfoStr value "referent", credInfoStr value "schema_id",
      credInfoStr value "cred_def_id" with
  | some referent, some schemaId, some credDefId => do
    let revocationInterval ← getRevocationInterval requestedAttr proofReq
    pure { requestedAttr, referent, schemaId, credDefId, revocationInterval,
           timestamp := none,
           revRegId := credInfoStr value "rev_reg_id",
           credRevId := credInfoStr value "cred_rev_id",
           tailsFile := (value.index "tails_file").asStr }
  | _, _, _ => .error (.fromMsg .invalidProofCredentialData "Cannot get identifiers")

/-- `credential_def_identifiers`. -/
def credentialDefIdentifiers (parser : JsonParser) (credentials : String)
    (proofReq : ProofRequestData) : Except VcxError (List CredInfoProver) := do
  let credentials ← (parser.parse credentials).mapError fun err =>
    .fromMsg .invalidJson ("Cannot deserialize credentials: " ++ err)
  match credentials.index "attrs" with
  | .object attrs => attrs.mapM fun entry => credInfoOfEntry proofReq entry.1 entry.2
  | _ => pure []

/-! ## Characterisation -/

/-- The entries of the document's `attrs`: none when it is missing or not an
    object. -/
def attrEntries (v : Json) : List (String × Json) :=
  match v.index "attrs" with
  | .object entries => entries
  | _ => []

theorem nodup_keys_attrEntries {v : Json} (hv : v.WF) : ((attrEntries v).map Prod.fst).Nodup := by
  have hattrs := hv.index "attrs"
  unfold attrEntries
  split
  · next entries h =>
    rw [h] at hattrs
    cases hattrs with
    | object hnd _ => exact hnd
  · exact List.nodup_nil

/-- An entry the loop accepts: the three ids are strings and the key is a
    referent of the request. -/
def SelectedEntryValid (req : ProofRequestData) (entry : String × Json) : Prop :=
  (credInfoStr entry.2 "referent").isSome ∧ (credInfoStr entry.2 "schema_id").isSome ∧
    (credInfoStr entry.2 "cred_def_id").isSome ∧ req.Names entry.1

/-- The record the entry `k ↦ value` stands for. -/
def selectedCredInfo (req : ProofRequestData) (entry : String × Json) : CredInfoProver where
  requestedAttr := entry.1
  referent := (credInfoStr entry.2 "referent").getD ""
  schemaId := (credInfoStr entry.2 "schema_id").getD ""
  credDefId := (credInfoStr entry.2 "cred_def_id").getD ""
  revRegId := credInfoStr entry.2 "rev_reg_id"
  credRevId := credInfoStr entry.2 "cred_rev_id"
  revocationInterval := requestedNonRevoked req entry.1
  tailsFile := (entry.2.index "tails_file").asStr
  timestamp := none

theorem credInfoOfEntry_ok_iff {req : ProofRequestData} {k : String} {value : Json}
    {c : CredInfoProver} :
    credInfoOfEntry req k value = .ok c ↔
      SelectedEntryValid req (k, value) ∧ c = selectedCredInfo req (k, value) := by
  unfold credInfoOfEntry SelectedEntryValid selectedCredInfo
  rcases credInfoStr value "referent" with _ | r <;>
  rcases credInfoStr value "schema_id" with _ | s <;>
  rcases credInfoStr value "cred_def_id" with _ | d <;>
  by_cases hk : req.Names k <;>
  simp [getRevocationInterval_eq, hk, bind, Except.bind, pure, Except.pure, eq_comm]

theorem credentialDefIdentifiers_of_parse_ok {parser : JsonParser} {s : String} {v : Json}
    (req : ProofRequestData) (h : parser.parse s = .ok v) :
    credentialDefIdentifiers parser s req =
      (attrEntries v).mapM fun entry => credInfoOfEntry req entry.1 entry.2 := by
  unfold credentialDefIdentifiers attrEntries
  simp only [h, Except.mapError, bind, Except.bind]
  split <;> rfl

theorem credentialDefIdentifiers_of_parse_error {parser : JsonParser} {s err : String}
    (req : ProofRequestData) (h : parser.parse s = .error err) :
    credentialDefIdentifiers parser s req =
      .error (.fromMsg .invalidJson ("Cannot deserialize credentials: " ++ err)) := by
  simp [credentialDefIdentifiers, h, Except.mapError, bind, Except.bind]

/-- The loop over `attrs` succeeds exactly when every entry is valid, and then
    returns one record per entry. -/
theorem mapM_credInfoOfEntry_eq_ok_iff {req : ProofRequestData} {entries : List (String × Json)}
    {l : List CredInfoProver} :
    entries.mapM (fun entry => credInfoOfEntry req entry.1 entry.2) = .ok l ↔
      (∀ entry ∈ entries, SelectedEntryValid req entry) ∧ l = entries.map (selectedCredInfo req) := by
  constructor
  · intro h
    have hall : ∀ entry ∈ entries, SelectedEntryValid req entry := fun entry hentry =>
      let ⟨_, hc⟩ := forall_ok_of_mapM_eq_ok h entry hentry
      (credInfoOfEntry_ok_iff.mp hc).1
    refine ⟨hall, ?_⟩
    rw [mapM_eq_map_of_ok fun entry hentry => credInfoOfEntry_ok_iff.mpr ⟨hall entry hentry, rfl⟩]
      at h
    exact (Except.ok.inj h).symm
  · rintro ⟨hall, rfl⟩
    exact mapM_eq_map_of_ok fun entry hentry => credInfoOfEntry_ok_iff.mpr ⟨hall entry hentry, rfl⟩

/-- A successful run parsed the document, found every entry of `attrs` valid,
    and returned one record per entry. -/
theorem credentialDefIdentifiers_eq_ok {parser : JsonParser} {s : String} {req : ProofRequestData}
    {l : List CredInfoProver} (h : credentialDefIdentifiers parser s req = .ok l) :
    ∃ v, parser.parse s = .ok v ∧ (∀ entry ∈ attrEntries v, SelectedEntryValid req entry) ∧
      l = (attrEntries v).map (selectedCredInfo req) := by
  cases hs : parser.parse s with
  | error err => rw [credentialDefIdentifiers_of_parse_error req hs] at h; cases h
  | ok v =>
    rw [credentialDefIdentifiers_of_parse_ok req hs, mapM_credInfoOfEntry_eq_ok_iff] at h
    exact ⟨v, rfl, h⟩

/-- The records come without a timestamp. -/
theorem credentialDefIdentifiers_timestamp {parser : JsonParser} {s : String}
    {req : ProofRequestData} {l : List CredInfoProver}
    (h : credentialDefIdentifiers parser s req = .ok l) : ∀ c ∈ l, c.timestamp = none := by
  obtain ⟨v, -, -, rfl⟩ := credentialDefIdentifiers_eq_ok h
  intro c hc
  obtain ⟨e, -, rfl⟩ := List.mem_map.mp hc
  rfl

end VcxProver

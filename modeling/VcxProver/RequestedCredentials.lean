/-
  VcxProver.RequestedCredentials

  `build_requested_credentials_json` (disclosed_proof.rs): the indy-style
  `requested_credentials` document. Two independent loops over the credentials
  fill `requested_attributes` and `requested_predicates`. Each loop keeps the
  credentials whose referent is a key of the request's attribute map, or of its
  predicate map. The self-attested text is parsed last. A referent that names
  both an attribute and a predicate of the request lands in both maps.
-/
import VcxProver.Identifiers

namespace VcxProver

/-- `json!(cred_info.timestamp)`: a number, or `null`. -/
def timestampJson : Option Nat → Json
  | some t => .number t
  | none => .null

/-- `{"cred_id": referent, "revealed": true, "timestamp": timestamp}` -/
def requestedAttributeRecord (credInfo : CredInfoProver) : Json :=
  .object [("cred_id", .string credInfo.referent), ("revealed", .bool true),
    ("timestamp", timestampJson credInfo.timestamp)]

/-- `{"cred_id": referent, "timestamp": timestamp}` -/
def requestedPredicateRecord (credInfo : CredInfoProver) : Json :=
  .object [("cred_id", .string credInfo.referent), ("timestamp", timestampJson credInfo.timestamp)]

/-- One of the two loops: `map.insert(requested_attr, record)` for every
    credential whose referent is a key of `spec`. -/
def insertRequested {α : Type} (spec : List (String × α)) (record : CredInfoProver → Json)
    (map : List (String × Json)) (credentialsIdentifiers : List CredInfoProver) :
    List (String × Json) :=
  credentialsIdentifiers.foldl (fun map credInfo =>
    if (spec.lookup credInfo.requestedAttr).isSome then
      mapInsert credInfo.requestedAttr (record credInfo) map
    else map) map

/-- `build_requested_credentials_json`: the document whose `to_string` the Rust
    function returns. -/
def buildRequestedCredentialsJson (parser : JsonParser)
    (credentialsIdentifiers : List CredInfoProver) (selfAttestedAttrs : String)
    (proofReq : ProofRequestData) : Except VcxError Json := do
  let requestedAttributes :=
    insertRequested proofReq.requestedAttributes requestedAttributeRecord [] credentialsIdentifiers
  let requestedPredicates :=
    insertRequested proofReq.requestedPredicates requestedPredicateRecord [] credentialsIdentifiers
  let selfAttestedAttrs ← (parser.parse selfAttestedAttrs).mapError fun err =>
    .fromMsg .invalidJson ("Cannot deserialize self attested attributes: " ++ err)
  pure (.object [("self_attested_attributes", selfAttestedAttrs),
    ("requested_attributes", .object requestedAttributes),
    ("requested_predicates", .object requestedPredicates)])

/-! ## The loops -/

section InsertRequested

variable {α : Type} {spec : List (String × α)} {record : CredInfoProver → Json}

@[simp] theorem insertRequested_nil (map : List (String × Json)) :
    insertRequested spec record map [] = map := rfl

@[simp] theorem insertRequested_cons (map : List (String × Json)) (c : CredInfoProver)
    (cs : List CredInfoProver) :
    insertRequested spec record map (c :: cs) =
      insertRequested spec record
        (if (spec.lookup c.requestedAttr).isSome then mapInsert c.requestedAttr (record c) map
         else map) cs := rfl

theorem mem_keys_insertRequested {k : String} :
    ∀ (map : List (String × Json)) (creds : List CredInfoProver),
      k ∈ (insertRequested spec record map creds).map Prod.fst ↔
        k ∈ map.map Prod.fst ∨ ∃ c ∈ creds, c.requestedAttr = k ∧ k ∈ spec.map Prod.fst
  | map, [] => by simp
  | map, c :: cs => by
    rw [insertRequested_cons, mem_keys_insertRequested]
    split_ifs with hc
    · rw [mem_keys_mapInsert]
      have := lookup_isSome_iff_mem_keys.mp hc
      constructor
      · rintro ((rfl | h) | ⟨c', hc', h⟩)
        · exact .inr ⟨c, by simp, rfl, this⟩
        · exact .inl h
        · exact .inr ⟨c', by simp [hc'], h⟩
      · rintro (h | ⟨c', hc', rfl, hk⟩)
        · exact .inl (.inr h)
        · rcases List.mem_cons.mp hc' with rfl | hc'
          · exact .inl (.inl rfl)
          · exact .inr ⟨c', hc', rfl, hk⟩
    · have : c.requestedAttr ∉ spec.map Prod.fst := fun h =>
        hc (lookup_isSome_iff_mem_keys.mpr h)
      constructor
      · rintro (h | ⟨c', hc', h⟩)
        · exact .inl h
        · exact .inr ⟨c', by simp [hc'], h⟩
      · rintro (h | ⟨c', hc', rfl, hk⟩)
        · exact .inl h
        · rcases List.mem_cons.mp hc' with rfl | hc'
          · exact absurd hk this
          · exact .inr ⟨c', hc', rfl, hk⟩

theorem lookup_insertRequested_of_not_mem {k : String} :
    ∀ (map : List (String × Json)) (creds : List CredInfoProver),
      (∀ c ∈ creds, c.requestedAttr ≠ k) →
        (insertRequested spec record map creds).lookup k = map.lookup k
  | map, [], _ => rfl
  | map, c :: cs, h => by
    rw [insertRequested_cons, lookup_insertRequested_of_not_mem _ cs fun c' hc' =>
      h c' (by simp [hc'])]
    split_ifs
    · exact lookup_mapInsert_ne _ _ (h c (by simp)).symm
    · rfl

/-- With distinct referents, a credential whose referent is a key of `spec`
    ends up under its referent with its own record. -/
theorem lookup_insertRequested {c : CredInfoProver} (hk : c.requestedAttr ∈ spec.map Prod.fst) :
    ∀ (map : List (String × Json)) (creds : List CredInfoProver),
      (creds.map CredInfoProver.requestedAttr).Nodup → c ∈ creds →
        (insertRequested spec record map creds).lookup c.requestedAttr = some (record c)
  | map, [], _, hc => absurd hc (List.not_mem_nil c)
  | map, c' :: cs, hnd, hc => by
    rw [List.map_cons, List.nodup_cons] at hnd
    rw [insertRequested_cons]
    rcases List.mem_cons.mp hc with rfl | hc
    · rw [lookup_insertRequested_of_not_mem _ cs fun c'' hc'' h =>
        hnd.1 (List.mem_map.mpr ⟨c'', hc'', h⟩),
        if_pos (lookup_isSome_iff_mem_keys.mpr hk), lookup_mapInsert_self]
    · exact lookup_insertRequested hk _ cs hnd.2 hc

/-- Every record in the map was there before or is some credential's own. -/
theorem lookup_insertRequested_cases {k : String} {j : Json} :
    ∀ (map : List (String × Json)) (creds : List CredInfoProver),
      (insertRequested spec record map creds).lookup k = some j →
        map.lookup k = some j ∨ ∃ c ∈ creds, c.requestedAttr = k ∧ j = record c
  | map, [], h => .inl h
  | map, c :: cs, h => by
    rw [insertRequested_cons] at h
    rcases lookup_insertRequested_cases _ cs h with h | ⟨c', hc', hk, rfl⟩
    · split_ifs at h
      · by_cases hck : k = c.requestedAttr
        · subst hck
          rw [lookup_mapInsert_self, Option.some.injEq] at h
          exact .inr ⟨c, by simp, rfl, h.symm⟩
        · exact .inl (by rwa [lookup_mapInsert_ne _ _ hck] at h)
      · exact .inl h
    · exact .inr ⟨c', by simp [hc'], hk, rfl⟩

theorem insertRequested_append_singleton (map : List (String × Json)) (cs : List CredInfoProver)
    (c : CredInfoProver) :
    insertRequested spec record map (cs ++ [c]) =
      if (spec.lookup c.requestedAttr).isSome then
        mapInsert c.requestedAttr (record c) (insertRequested spec record map cs)
      else insertRequested spec record map cs := by
  rw [insertRequested, List.foldl_append]
  rfl

/-- `map.insert` overwrites: a requested referent holds the record of the last
    credential selected for it. -/
theorem lookup_insertRequested_last {k : String} (map : List (String × Json))
    (creds : List CredInfoProver) :
    (insertRequested spec record map creds).lookup k =
      if (spec.lookup k).isSome then
        ((creds.filter (·.requestedAttr == k)).getLast?.map record).or (map.lookup k)
      else map.lookup k := by
  induction creds using List.reverseRecOn with
  | nil => split_ifs <;> rfl
  | append_singleton cs c ih =>
    rw [insertRequested_append_singleton, List.filter_append]
    by_cases hck : c.requestedAttr = k
    · subst hck
      by_cases hs : (spec.lookup c.requestedAttr).isSome
      · simp [hs]
      · rw [if_neg hs, if_neg hs, ih, if_neg hs]
    · have hX : (if (spec.lookup c.requestedAttr).isSome then
            mapInsert c.requestedAttr (record c) (insertRequested spec record map cs)
          else insertRequested spec record map cs).lookup k =
          (insertRequested spec record map cs).lookup k := by
        split_ifs
        · exact lookup_mapInsert_ne _ _ (Ne.symm hck)
        · rfl
      rw [hX, ih, List.filter_singleton, show (c.requestedAttr == k) = false by simpa using hck,
        cond_false, List.append_nil]

theorem nodup_keys_insertRequested :
    ∀ {map : List (String × Json)} (creds : List CredInfoProver), (map.map Prod.fst).Nodup →
      ((insertRequested spec record map creds).map Prod.fst).Nodup
  | _, [], h => h
  | _, c :: cs, h => by
    rw [insertRequested_cons]
    refine nodup_keys_insertRequested cs ?_
    split_ifs
    · exact nodup_keys_mapInsert _ _ h
    · exact h

end InsertRequested

/-! ## The document -/

theorem buildRequestedCredentialsJson_eq_ok {parser : JsonParser}
    {creds : List CredInfoProver} {a : String} {req : ProofRequestData} {out : Json} :
    buildRequestedCredentialsJson parser creds a req = .ok out ↔
      ∃ v, parser.parse a = .ok v ∧
        out = .object [("self_attested_attributes", v),
          ("requested_attributes",
            .object (insertRequested req.requestedAttributes requestedAttributeRecord [] creds)),
          ("requested_predicates",
            .object (insertRequested req.requestedPredicates requestedPredicateRecord [] creds))] := by
  unfold buildRequestedCredentialsJson
  cases parser.parse a <;>
    simp [Except.mapError, bind, Except.bind, pure, Except.pure, eq_comm]

/-- Every record of the document is the record of a credential, under its
    referent, with that credential's timestamp. -/
theorem buildRequestedCredentialsJson_records {parser : JsonParser}
    {creds : List CredInfoProver} {a : String} {req : ProofRequestData} {out : Json}
    (h : buildRequestedCredentialsJson parser creds a req = .ok out) :
    ∀ field ∈ ["requested_attributes", "requested_predicates"], ∀ k record,
      (out.index field).get k = some record →
      ∃ c ∈ creds, c.requestedAttr = k ∧ record.index "timestamp" = timestampJson c.timestamp := by
  obtain ⟨v, -, rfl⟩ := buildRequestedCredentialsJson_eq_ok.mp h
  intro field hfield k record hk
  simp only [List.mem_cons, List.mem_singleton, List.not_mem_nil, or_false] at hfield
  rcases hfield with rfl | rfl
  · rcases lookup_insertRequested_cases [] creds hk with h | ⟨c, hc, hck, rfl⟩
    · simp at h
    · exact ⟨c, hc, hck, rfl⟩
  · rcases lookup_insertRequested_cases [] creds hk with h | ⟨c, hc, hck, rfl⟩
    · simp at h
    · exact ⟨c, hc, hck, rfl⟩

/-- What `build_requested_credentials_json` returns, for every credential list.
    When the self-attested text parses, the document holds it and two maps
    with unique keys. A referent is a key of `requested_attributes` exactly
    when the request asks for it as an attribute and some credential is
    selected for it. It then holds the record of the last such credential, as
    `map.insert` overwrites; likewise for `requested_predicates`. Otherwise the
    function fails with the parser's error on that text. -/
theorem buildRequestedCredentialsJson_last_wins (parser : JsonParser)
    (creds : List CredInfoProver) (a : String) (req : ProofRequestData) :
    match buildRequestedCredentialsJson parser creds a req with
    | .ok out => ∃ v attrs preds, parser.parse a = .ok v ∧
        out = .object [("self_attested_attributes", v), ("requested_attributes", .object attrs),
          ("requested_predicates", .object preds)] ∧
        (attrs.map Prod.fst).Nodup ∧ (preds.map Prod.fst).Nodup ∧
        ∀ k, attrs.lookup k = (if (req.requestedAttributes.lookup k).isSome then
            (creds.filter (·.requestedAttr == k)).getLast?.map requestedAttributeRecord
          else none) ∧
          preds.lookup k = (if (req.requestedPredicates.lookup k).isSome then
            (creds.filter (·.requestedAttr == k)).getLast?.map requestedPredicateRecord
          else none)
    | .error e => ∃ err, parser.parse a = .error err ∧
        e = .fromMsg .invalidJson ("Cannot deserialize self attested attributes: " ++ err) := by
  have hlast : ∀ {α : Type} (spec : List (String × α)) (record : CredInfoProver → Json) k,
      (insertRequested spec record [] creds).lookup k = if (spec.lookup k).isSome then
        (creds.filter (·.requestedAttr == k)).getLast?.map record else none := by
    intro α spec record k
    rw [lookup_insertRequested_last]
    split_ifs <;> simp
  split
  · next out h =>
    obtain ⟨v, hv, rfl⟩ := buildRequestedCredentialsJson_eq_ok.mp h
    exact ⟨v, _, _, hv, rfl, nodup_keys_insertRequested creds List.nodup_nil,
      nodup_keys_insertRequested creds List.nodup_nil, fun k => ⟨hlast _ _ k, hlast _ _ k⟩⟩
  · next e h =>
    unfold buildRequestedCredentialsJson at h
    rcases hp : parser.parse a with err | v <;>
      simp only [hp, Except.mapError, bind, Except.bind, pure, Except.pure, reduceCtorEq,
        Except.error.injEq] at h
    exact ⟨err, rfl, h.symm⟩

/-- A request that names the referent `k` both as an attribute and as a predicate. -/
def sharedReferentRequest : ProofRequestData := ⟨[("k", ⟨none⟩)], [("k", ⟨none⟩)], none⟩

/-- A selection with one entry, `k`. -/
def sharedReferentSelection : Json :=
  .object [("attrs", .object [("k", .object [("credential", .object [("cred_info",
    .object [("referent", .string "r"), ("schema_id", .string "s"),
      ("cred_def_id", .string "d")])])])])]

def sharedReferentParser : JsonParser :=
  .ofTable [("selection", sharedReferentSelection), ("{}", .object [])] (by decide)

/-- The record `credential_def_identifiers` makes of the entry `k`. -/
def sharedReferentCred : CredInfoProver :=
  ⟨"k", "r", "s", "d", none, none, none, none, none⟩

/-- Where the selected credentials land. With `l` from
    `credential_def_identifiers`, the document is built exactly when the
    self-attested text parses. A key of `attrs` lands in `requested_attributes`
    when it names a requested attribute, and in `requested_predicates` when it
    names a requested predicate. A key naming both lands in both. Every key of
    `attrs` lands somewhere, with the referent of its own entry. -/
theorem buildRequestedCredentialsJson_placement (parser : JsonParser) (s a : String)
    (req : ProofRequestData) (l : List CredInfoProver)
    (hl : credentialDefIdentifiers parser s req = .ok l) :
    ((∃ out, buildRequestedCredentialsJson parser l a req = .ok out) ↔
        ∃ v, parser.parse a = .ok v) ∧
    ∀ out, buildRequestedCredentialsJson parser l a req = .ok out →
      ∃ v selfAttested attrs preds, parser.parse s = .ok v ∧
        out = .object [("self_attested_attributes", selfAttested),
          ("requested_attributes", .object attrs), ("requested_predicates", .object preds)] ∧
        (∀ k, k ∈ attrs.map Prod.fst ↔
          k ∈ (attrEntries v).map Prod.fst ∧ k ∈ req.requestedAttributes.map Prod.fst) ∧
        (∀ k, k ∈ preds.map Prod.fst ↔
          k ∈ (attrEntries v).map Prod.fst ∧ k ∈ req.requestedPredicates.map Prod.fst) ∧
        (∀ k, k ∈ (attrEntries v).map Prod.fst ↔
          k ∈ attrs.map Prod.fst ∨ k ∈ preds.map Prod.fst) ∧
        ∀ k value, (k, value) ∈ attrEntries v → ∃ referent,
          credInfoStr value "referent" = some referent ∧
          (k ∈ attrs.map Prod.fst → attrs.lookup k = some (.object [("cred_id", .string referent),
            ("revealed", .bool true), ("timestamp", .null)])) ∧
          (k ∈ preds.map Prod.fst → preds.lookup k = some (.object [("cred_id", .string referent),
            ("timestamp", .null)])) := by
  obtain ⟨v, hv, hall, rfl⟩ := credentialDefIdentifiers_eq_ok hl
  refine ⟨⟨fun ⟨_, h⟩ => ?_, fun ⟨w, hw⟩ => ⟨_, buildRequestedCredentialsJson_eq_ok.mpr
    ⟨w, hw, rfl⟩⟩⟩, fun out hout => ?_⟩
  · obtain ⟨w, hw, -⟩ := buildRequestedCredentialsJson_eq_ok.mp h
    exact ⟨w, hw⟩
  obtain ⟨w, -, rfl⟩ := buildRequestedCredentialsJson_eq_ok.mp hout
  have hkeys : ∀ {α : Type} (spec : List (String × α)) (record : CredInfoProver → Json) k,
      k ∈ (insertRequested spec record [] ((attrEntries v).map (selectedCredInfo req))).map
          Prod.fst ↔ k ∈ (attrEntries v).map Prod.fst ∧ k ∈ spec.map Prod.fst := by
    intro α spec record k
    rw [mem_keys_insertRequested]
    constructor
    · rintro (h | ⟨c, hc, rfl, hk⟩)
      · simp at h
      · obtain ⟨e, he, rfl⟩ := List.mem_map.mp hc
        exact ⟨List.mem_map_of_mem _ he, hk⟩
    · rintro ⟨hk, hs⟩
      obtain ⟨e, he, rfl⟩ := List.mem_map.mp hk
      exact .inr ⟨_, List.mem_map_of_mem _ he, rfl, hs⟩
  have hnd : (((attrEntries v).map (selectedCredInfo req)).map
      CredInfoProver.requestedAttr).Nodup := by
    simpa [List.map_map, selectedCredInfo, Function.comp_def] using
      nodup_keys_attrEntries (parser.wf hv)
  refine ⟨v, w, _, _, hv, rfl, hkeys _ _, hkeys _ _, fun k => ?_, fun k value hkv => ?_⟩
  · rw [hkeys, hkeys, ← and_or_left, iff_self_and]
    intro hk
    obtain ⟨⟨k', x⟩, hmem, rfl⟩ := List.mem_map.mp hk
    exact (hall _ hmem).2.2.2
  · obtain ⟨hr, -, -, -⟩ := hall _ hkv
    obtain ⟨r, hr⟩ := Option.isSome_iff_exists.mp hr
    have hmem := List.mem_map_of_mem (selectedCredInfo req) hkv
    refine ⟨r, hr, fun hk => ?_, fun hk => ?_⟩
    · have : (insertRequested req.requestedAttributes requestedAttributeRecord [] _).lookup k =
          some (requestedAttributeRecord (selectedCredInfo req (k, value))) :=
        lookup_insertRequested ((hkeys _ _ k).mp hk).2 [] _ hnd hmem
      simpa [requestedAttributeRecord, selectedCredInfo, hr, timestampJson] using this
    · have : (insertRequested req.requestedPredicates requestedPredicateRecord [] _).lookup k =
          some (requestedPredicateRecord (selectedCredInfo req (k, value))) :=
        lookup_insertRequested ((hkeys _ _ k).mp hk).2 [] _ hnd hmem
      simpa [requestedPredicateRecord, selectedCredInfo, hr, timestampJson] using this

theorem sharedReferent_placement :
    credentialDefIdentifiers sharedReferentParser "selection" sharedReferentRequest =
        .ok [sharedReferentCred] ∧
      ((∃ out, buildRequestedCredentialsJson sharedReferentParser [sharedReferentCred] "{}"
          sharedReferentRequest = .ok out) ↔ ∃ v, sharedReferentParser.parse "{}" = .ok v) :=
  ⟨rfl, (buildRequestedCredentialsJson_placement sharedReferentParser "selection" "{}"
    sharedReferentRequest [sharedReferentCred] rfl).1⟩

/-- The referent `k` lands in both maps. -/
theorem sharedReferent_lands_in_both_maps :
    credentialDefIdentifiers sharedReferentParser "selection" sharedReferentRequest =
        .ok [sharedReferentCred] ∧
      buildRequestedCredentialsJson sharedReferentParser [sharedReferentCred] "{}"
          sharedReferentRequest =
        .ok (.object [("self_attested_attributes", .object []),
          ("requested_attributes", .object [("k", requestedAttributeRecord sharedReferentCred)]),
          ("requested_predicates",
            .object [("k", requestedPredicateRecord sharedReferentCred)])]) :=
  ⟨rfl, rfl⟩

end VcxProver

/-
  VcxProver.RevStates.Stamp

  What `build_rev_states_json` returns, for any collaborators and any cache.
  The revocation-states object has one key per registry of the credentials that
  carry rev_reg_id, cred_rev_id and tails_file. Each key holds one state, under
  the decimal timestamp that every credential of that registry is stamped with.
  The loop invariant `StampInv` says this of the credentials visited so far. It
  also records where each timestamp came from: the branch selection run for the
  first credential of its registry.
-/
import VcxProver.RevStates.Trace
import VcxProver.RequestedCredentials

namespace VcxProver

/-- `(rev_reg_id, cred_rev_id, tails_file)`, when the credential carries all three. -/
def CredInfoProver.revocationIds (c : CredInfoProver) : Option (String × String × String) :=
  match c.revRegId, c.credRevId, c.tailsFile with
  | some r, some cr, some t => some (r, cr, t)
  | _, _, _ => none

/-- The registry whose state the loop builds for the credential, if any. -/
def CredInfoProver.registry (c : CredInfoProver) : Option String := c.revocationIds.map Prod.fst

/-- The first credential of `l` whose state lives in registry `R`. -/
def firstOfRegistry (R : String) (l : List CredInfoProver) : Option CredInfoProver :=
  l.find? (·.registry == some R)

/-- The stamp the memo gives a credential. -/
def stampWith (timestamps : List (String × Nat)) (c : CredInfoProver) : CredInfoProver :=
  match c.registry with
  | some R => { c with timestamp := timestamps.lookup R }
  | none => c

theorem revocationIds_eq_some_iff {c : CredInfoProver} {R cr t : String} :
    c.revocationIds = some (R, cr, t) ↔
      c.revRegId = some R ∧ c.credRevId = some cr ∧ c.tailsFile = some t := by
  obtain ⟨_, _, _, _, _ | r, _ | cr', _, _ | t', _⟩ := c <;> simp [CredInfoProver.revocationIds]

theorem revocationIds_of_registry {c : CredInfoProver} {R : String} (h : c.registry = some R) :
    ∃ cr t, c.revocationIds = some (R, cr, t) := by
  obtain ⟨⟨R', cr, t⟩, hids, rfl⟩ := Option.map_eq_some'.mp h
  exact ⟨cr, t, hids⟩

theorem registry_eq_some_of_revocationIds {c : CredInfoProver} {R cr t : String}
    (h : c.revocationIds = some (R, cr, t)) : c.registry = some R := by
  simp [CredInfoProver.registry, h]

theorem revRegId_eq_of_registry {c : CredInfoProver} {R : String} (h : c.registry = some R) :
    c.revRegId = some R := by
  unfold CredInfoProver.registry CredInfoProver.revocationIds at h
  split at h <;> simp_all

theorem firstOfRegistry_append_of_some {R : String} {p q : List CredInfoProver}
    {c : CredInfoProver} (h : firstOfRegistry R p = some c) : firstOfRegistry R (p ++ q) = some c := by
  unfold firstOfRegistry at h ⊢
  simp [List.find?_append, h]

theorem firstOfRegistry_spec {R : String} {l : List CredInfoProver} {c : CredInfoProver}
    (h : firstOfRegistry R l = some c) : c ∈ l ∧ c.registry = some R :=
  ⟨List.mem_of_find?_eq_some h, by simpa using List.find?_some h⟩

theorem exists_firstOfRegistry {R : String} {l : List CredInfoProver}
    (h : ∃ c ∈ l, c.registry = some R) : ∃ c, firstOfRegistry R l = some c := by
  obtain ⟨c, hc, hR⟩ := h
  exact Option.isSome_iff_exists.mp (List.find?_isSome.mpr ⟨c, hc, by simp [hR]⟩)

theorem firstOfRegistry_of_prefix_eq_some {R : String} {q l : List CredInfoProver} {c : CredInfoProver}
    (hq : q <+: l) (h : firstOfRegistry R q = some c) : firstOfRegistry R l = some c := by
  obtain ⟨r, rfl⟩ := hq
  exact firstOfRegistry_append_of_some h

/-- Appending a credential of another registry, or of one already present,
    keeps the first credential of `R`. -/
theorem firstOfRegistry_append_singleton_of_old {R : String} {p : List CredInfoProver}
    {c : CredInfoProver} (hold : c.registry = some R → ∃ c' ∈ p, c'.registry = some R) :
    firstOfRegistry R (p ++ [c]) = firstOfRegistry R p := by
  cases hf : firstOfRegistry R p with
  | some c' => exact firstOfRegistry_append_of_some hf
  | none =>
    have hc : c.registry ≠ some R := fun h => by
      obtain ⟨c', hc', h'⟩ := hold h
      have := List.find?_eq_none.mp hf c' hc'
      simp [h'] at this
    unfold firstOfRegistry at hf ⊢
    simp [List.find?_append, hf, hc]

theorem firstOfRegistry_append_singleton {R : String} {p : List CredInfoProver}
    {c : CredInfoProver} (hp : ∀ c' ∈ p, c'.registry ≠ some R) (hc : c.registry = some R) :
    firstOfRegistry R (p ++ [c]) = some c := by
  have : firstOfRegistry R p = none := by
    simpa [firstOfRegistry, List.find?_eq_none] using hp
  simp_all [firstOfRegistry, List.find?_append]

theorem exists_registry_append_singleton {p : List CredInfoProver} {c : CredInfoProver}
    {R : String} : (∃ c' ∈ p ++ [c], c'.registry = some R) ↔
      (∃ c' ∈ p, c'.registry = some R) ∨ c.registry = some R := by
  simp [or_and_right, exists_or]

theorem stampWith_mapInsert_of_ne {R : String} {ts : Nat} {m : List (String × Nat)}
    {c : CredInfoProver} (h : c.registry ≠ some R) :
    stampWith (mapInsert R ts m) c = stampWith m c := by
  unfold stampWith
  split
  · next R' hR' => rw [lookup_mapInsert_ne _ _ fun e => h (hR'.trans (congrArg some e))]
  · rfl

/-! ## One iteration -/

section Step

variable {env : Env} {parser : JsonParser}

theorem buildRevStatesStep_eq (acc : Acc) (c : CredInfoProver) :
    buildRevStatesStep env parser acc c =
      match c.revocationIds with
      | some (R, cr, t) => do
        let (c', acc') ← if (acc.rtn.lookup R).isNone then addRevState env parser acc c R cr t
          else pure (c, acc)
        pure { acc' with done := acc'.done ++ [fillTimestamp c' acc'.timestamps R] }
      | none => pure { acc with done := acc.done ++ [c] } := by
  obtain ⟨_, _, _, _, _ | R, _ | cr, _, _ | t, _⟩ := c <;> rfl

theorem addRevState_ok {acc acc' : Acc} {c c' : CredInfoProver} {R cr t : String} {w w' : World}
    (h : addRevState env parser acc c R cr t w = .ok (c', acc') w') :
    ∃ j ts v, getRevState env c R cr t (intervalBounds c.revocationInterval).1
        (intervalBounds c.revocationInterval).2 w = .ok (j, ts) w' ∧
      parser.parse j = .ok v ∧ c' = { c with timestamp := some ts } ∧
      acc' = { acc with rtn := mapInsert R (.object [(toString ts, v)]) acc.rtn
                        timestamps := mapInsert R ts acc.timestamps } := by
  unfold addRevState at h
  obtain ⟨⟨j, ts⟩, w₁, hg, h⟩ := bind_apply_eq_ok.mp h
  obtain ⟨v, w₂, hp, h⟩ := bind_apply_eq_ok.mp h
  rw [parseRevState_apply] at hp
  rcases hv : parser.parse j with _ | v' <;> rw [hv] at hp <;> cases hp
  cases h
  exact ⟨j, ts, _, hg, hv, rfl, rfl⟩

theorem addRevState_error {acc : Acc} {c : CredInfoProver} {R cr t : String} {w w' : World}
    {e : VcxError} (h : addRevState env parser acc c R cr t w = .error e w') :
    stateOf (getRevState env c R cr t (intervalBounds c.revocationInterval).1
      (intervalBounds c.revocationInterval).2 w) = w' := by
  unfold addRevState at h
  generalize intervalBounds c.revocationInterval = b at h ⊢
  obtain ⟨fromTs, toTs⟩ := b
  rcases bind_apply_eq_error.mp h with hg | ⟨⟨j, ts⟩, w₁, hg, h⟩
  · rw [hg]; rfl
  · rw [hg]
    rcases bind_apply_eq_error.mp h with hp | ⟨v, w₂, hp, h⟩
    · rw [parseRevState_apply] at hp
      split at hp <;> cases hp
      rfl
    · cases h

/-- What one iteration can do: leave a credential without the three ids as
    it is; stamp one of a registry already built from the memo; or build the
    state of a new registry, which stamps the credential and fills `rtn` and
    the memo. -/
theorem buildRevStatesStep_ok {acc acc' : Acc} {c : CredInfoProver} {w w' : World}
    (h : buildRevStatesStep env parser acc c w = .ok acc' w') :
    (c.revocationIds = none ∧ acc' = { acc with done := acc.done ++ [c] } ∧ w' = w) ∨
    (∃ R cr t, c.revocationIds = some (R, cr, t) ∧ (acc.rtn.lookup R).isSome ∧
      acc' = { acc with done := acc.done ++ [fillTimestamp c acc.timestamps R] } ∧ w' = w) ∨
    (∃ R cr t j ts v, c.revocationIds = some (R, cr, t) ∧ acc.rtn.lookup R = none ∧
      getRevState env c R cr t (intervalBounds c.revocationInterval).1
        (intervalBounds c.revocationInterval).2 w = .ok (j, ts) w' ∧
      parser.parse j = .ok v ∧
      acc' = ⟨mapInsert R (.object [(toString ts, v)]) acc.rtn, mapInsert R ts acc.timestamps,
        acc.done ++ [{ c with timestamp := some ts }]⟩) := by
  rw [buildRevStatesStep_eq] at h
  rcases hc : c.revocationIds with _ | ⟨R, cr, t⟩ <;> simp only [hc] at h
  · cases h
    exact .inl ⟨rfl, rfl, rfl⟩
  split_ifs at h with hn
  · obtain ⟨⟨c', acc₁⟩, w₁, h1, h2⟩ := bind_apply_eq_ok.mp h
    cases h2
    obtain ⟨j, ts, v, hg, hp, rfl, rfl⟩ := addRevState_ok h1
    exact .inr (.inr ⟨R, cr, t, j, ts, v, rfl, Option.isNone_iff_eq_none.mp hn, hg, hp,
      by simp [fillTimestamp]⟩)
  · cases h
    exact .inr (.inl ⟨R, cr, t, rfl, by simpa [Option.isNone_iff_eq_none,
      Option.ne_none_iff_isSome] using hn, rfl, rfl⟩)

end Step

/-! ## The loop invariant -/

/-- What the memo holds after visiting `p`: one singleton state per registry
    of `p`, its timestamp in the memo, and every timestamp the result of the
    branch selection run for the first credential of its registry. -/
structure MemoInv (env : Env) (p : List CredInfoProver) (acc : Acc) : Prop where
  keys : ∀ R, (acc.rtn.lookup R).isSome ↔ ∃ c ∈ p, c.registry = some R
  nodup : (acc.rtn.map Prod.fst).Nodup
  states : ∀ R j, acc.rtn.lookup R = some j →
    ∃ ts v, j = .object [(toString ts, v)] ∧ acc.timestamps.lookup R = some ts
  origin : ∀ R ts, acc.timestamps.lookup R = some ts → ∃ c cr t entry j calls,
    firstOfRegistry R p = some c ∧ c.revocationIds = some (R, cr, t) ∧
    revStateFromCache env R cr t (intervalBounds c.revocationInterval).1
      (intervalBounds c.revocationInterval).2 entry [] = .ok (j, ts) calls

/-- The memo, and every visited credential stamped from it. -/
structure StampInv (env : Env) (p : List CredInfoProver) (acc : Acc)
    extends MemoInv env p acc : Prop where
  done : acc.done = p.map (stampWith acc.timestamps)

theorem stampInv_nil (env : Env) : StampInv env [] ⟨[], [], []⟩ :=
  ⟨⟨by simp, List.nodup_nil, by simp, by simp⟩, rfl⟩

section StepInv

variable {env : Env} {parser : JsonParser} {p : List CredInfoProver} {acc : Acc}

theorem MemoInv.lookup_timestamps (hinv : MemoInv env p acc) {R : String} {c : CredInfoProver}
    (hc : c ∈ p) (hR : c.registry = some R) : ∃ ts, acc.timestamps.lookup R = some ts := by
  obtain ⟨j, hj⟩ := Option.isSome_iff_exists.mp ((hinv.keys R).mpr ⟨c, hc, hR⟩)
  obtain ⟨ts, -, -, hts⟩ := hinv.states R j hj
  exact ⟨ts, hts⟩

theorem MemoInv.not_registry_of_lookup_none (hinv : MemoInv env p acc) {R : String}
    (hR : acc.rtn.lookup R = none) : ∀ c ∈ p, c.registry ≠ some R := fun c hc h => by
  have := (hinv.keys R).mpr ⟨c, hc, h⟩
  simp [hR] at this

/-- A credential without the three ids adds no registry. -/
theorem registry_old_of_none {p : List CredInfoProver} {c : CredInfoProver}
    (hids : c.revocationIds = none) :
    ∀ R, c.registry = some R → ∃ c' ∈ p, c'.registry = some R := fun R h => by
  simp [CredInfoProver.registry, hids] at h

/-- Nor does one of a registry the memo already holds. -/
theorem MemoInv.registry_old (hinv : MemoInv env p acc) {c : CredInfoProver} {R cr t : String}
    (hids : c.revocationIds = some (R, cr, t)) (hR : (acc.rtn.lookup R).isSome) :
    ∀ R', c.registry = some R' → ∃ c' ∈ p, c'.registry = some R' := fun R' h => by
  obtain rfl : R = R' := Option.some.inj ((registry_eq_some_of_revocationIds hids).symm.trans h)
  exact (hinv.keys R).mp hR

/-- A credential without the three ids, or one of a registry already built. -/
theorem MemoInv.push_old (hinv : MemoInv env p acc) {c : CredInfoProver}
    (hold : ∀ R, c.registry = some R → ∃ c' ∈ p, c'.registry = some R)
    (done : List CredInfoProver) : MemoInv env (p ++ [c]) { acc with done } := by
  refine ⟨fun R => ?_, hinv.nodup, hinv.states, fun R ts hts => ?_⟩
  · rw [hinv.keys R, exists_registry_append_singleton]
    exact ⟨.inl, fun h => h.elim id (hold R)⟩
  · obtain ⟨c', cr, t, entry, j, calls, hf, hids, hr⟩ := hinv.origin R ts hts
    exact ⟨c', cr, t, entry, j, calls, firstOfRegistry_append_of_some hf, hids, hr⟩

/-- The first credential of a new registry. -/
theorem MemoInv.push_new (hinv : MemoInv env p acc) {c : CredInfoProver} {R cr t j : String}
    {ts : Nat} {v : Json} {calls : List Call} (hids : c.revocationIds = some (R, cr, t))
    (hR : acc.rtn.lookup R = none) (entry : RevRegCache)
    (hr : revStateFromCache env R cr t (intervalBounds c.revocationInterval).1
      (intervalBounds c.revocationInterval).2 entry [] = .ok (j, ts) calls) (done : List CredInfoProver) :
    MemoInv env (p ++ [c]) ⟨mapInsert R (.object [(toString ts, v)]) acc.rtn,
      mapInsert R ts acc.timestamps, done⟩ := by
  have hreg := registry_eq_some_of_revocationIds hids
  refine ⟨fun R' => ?_, nodup_keys_mapInsert _ _ hinv.nodup, fun R' j' hj' => ?_,
    fun R' ts' hts' => ?_⟩
  · rw [exists_registry_append_singleton, hreg]
    by_cases hRR : R' = R
    · subst hRR
      simp
    · rw [lookup_mapInsert_ne _ _ hRR, hinv.keys R']
      simp [Ne.symm hRR]
  · by_cases hRR : R' = R
    · subst hRR
      simp only [lookup_mapInsert_self, Option.some.injEq] at hj'
      exact ⟨ts, v, hj'.symm, by simp⟩
    · rw [lookup_mapInsert_ne _ _ hRR] at hj' ⊢
      exact hinv.states R' j' hj'
  · by_cases hRR : R' = R
    · subst hRR
      simp only [lookup_mapInsert_self, Option.some.injEq] at hts'
      subst hts'
      exact ⟨c, cr, t, entry, j, calls,
        firstOfRegistry_append_singleton (hinv.not_registry_of_lookup_none hR) hreg, hids, hr⟩
    · rw [lookup_mapInsert_ne _ _ hRR] at hts'
      obtain ⟨c', cr', t', entry', j', calls', hf, hids', hr'⟩ := hinv.origin R' ts' hts'
      exact ⟨c', cr', t', entry', j', calls', firstOfRegistry_append_of_some hf, hids', hr'⟩

/-- One iteration keeps the memo invariant. -/
theorem MemoInv.step (hinv : MemoInv env p acc) {c : CredInfoProver} {acc' : Acc} {w w' : World}
    (h : buildRevStatesStep env parser acc c w = .ok acc' w') : MemoInv env (p ++ [c]) acc' := by
  rcases buildRevStatesStep_ok h with ⟨hids, rfl, -⟩ | ⟨R, cr, t, hids, hR, rfl, -⟩ |
    ⟨R, cr, t, j, ts, v, hids, hR, hg, -, rfl⟩
  · exact hinv.push_old (registry_old_of_none hids) _
  · exact hinv.push_old (hinv.registry_old hids hR) _
  · rw [getRevState_apply] at hg
    split at hg
    · next a calls hr =>
      cases hg
      exact hinv.push_new hids hR _ hr _
    · cases hg

/-- One iteration keeps the invariant; the stamps need the credential to come
    without a timestamp. -/
theorem StampInv.step (hinv : StampInv env p acc) {c : CredInfoProver} {acc' : Acc}
    {w w' : World} (hnone : c.timestamp = none)
    (h : buildRevStatesStep env parser acc c w = .ok acc' w') : StampInv env (p ++ [c]) acc' := by
  refine ⟨hinv.toMemoInv.step h, ?_⟩
  rcases buildRevStatesStep_ok h with ⟨hids, rfl, -⟩ | ⟨R, cr, t, hids, hR, rfl, -⟩ |
    ⟨R, cr, t, j, ts, v, hids, hR, -, -, rfl⟩
  · simp [hinv.done, stampWith, CredInfoProver.registry, hids]
  · simp [hinv.done, stampWith, fillTimestamp, hnone, registry_eq_some_of_revocationIds hids]
  · have hnew := hinv.not_registry_of_lookup_none hR
    simp only [List.map_append, List.map_singleton, hinv.done]
    congr 1
    · exact List.map_congr_left fun c' hc' => (stampWith_mapInsert_of_ne (hnew c' hc')).symm
    · simp [stampWith, registry_eq_some_of_revocationIds hids]

/-- The whole loop keeps the invariant. -/
theorem StampInv.foldlM {cs p : List CredInfoProver} {acc acc' : Acc} {w w' : World}
    (hnone : ∀ c ∈ cs, c.timestamp = none) (hinv : StampInv env p acc)
    (h : cs.foldlM (buildRevStatesStep env parser) acc w = .ok acc' w') :
    StampInv env (p ++ cs) acc' :=
  foldlM_ok_induction (fun p acc _ => StampInv env p acc)
    (fun c hc _ _ _ _ _ hinv h => hinv.step (hnone c hc) h) hinv h

end StepInv

/-! ## The result -/

/-- The stamp of registry `R`: its memoised timestamp. -/
def Acc.stampOf (acc : Acc) (R : String) : Nat := (acc.timestamps.lookup R).getD 0

section Result

variable {env : Env} {parser : JsonParser} {l : List CredInfoProver} {acc : Acc}

theorem StampInv.done_eq_map (hinv : StampInv env l acc) (hnone : ∀ c ∈ l, c.timestamp = none) :
    acc.done = l.map fun c => { c with timestamp := c.registry.map acc.stampOf } := by
  rw [hinv.done]
  refine List.map_congr_left fun c hc => ?_
  unfold stampWith
  split
  · next R hR =>
    obtain ⟨ts, hts⟩ := hinv.lookup_timestamps hc hR
    simp [hR, hts, Acc.stampOf]
  · next hR => simp [hR, ← hnone c hc]

theorem StampInv.lookup_rtn (hinv : StampInv env l acc) {R : String} {j : Json}
    (h : acc.rtn.lookup R = some j) : ∃ v, j = .object [(toString (acc.stampOf R), v)] := by
  obtain ⟨ts, v, rfl, hts⟩ := hinv.states R j h
  exact ⟨v, by simp [Acc.stampOf, hts]⟩

/-- Every timestamp that `build_requested_credentials_json` writes for the
    stamped credentials names a state of the output. -/
theorem StampInv.timestamps_named (hinv : StampInv env l acc)
    (hnone : ∀ c ∈ l, c.timestamp = none) {parser' : JsonParser} {a : String}
    {req : ProofRequestData} {out : Json}
    (hout : buildRequestedCredentialsJson parser' acc.done a req = .ok out) :
    ∀ field ∈ ["requested_attributes", "requested_predicates"], ∀ k record (t : Nat),
      (out.index field).get k = some record → record.index "timestamp" = .number t →
      ∃ R v, acc.rtn.lookup R = some (.object [(toString t, v)]) := by
  intro field hfield k record t hk ht
  obtain ⟨c', hc', -, hts⟩ := buildRequestedCredentialsJson_records hout field hfield k record hk
  rw [hinv.done_eq_map hnone] at hc'
  obtain ⟨c, hc, rfl⟩ := List.mem_map.mp hc'
  rcases hR : c.registry with _ | R <;>
    simp only [hR, Option.map_none', Option.map_some', timestampJson, ht,
      Json.number.injEq, Int.ofNat_inj, reduceCtorEq] at hts
  obtain ⟨j, hj⟩ := Option.isSome_iff_exists.mp ((hinv.keys R).mpr ⟨c, hc, hR⟩)
  obtain ⟨v, rfl⟩ := hinv.lookup_rtn hj
  exact ⟨R, v, by rw [hts]; exact hj⟩

theorem buildRevStatesJson_eq_ok {w w' : World} {s : Json} {l' : List CredInfoProver} :
    buildRevStatesJson env parser l w = .ok (s, l') w' ↔
      ∃ acc, l.foldlM (buildRevStatesStep env parser) ⟨[], [], []⟩ w = .ok acc w' ∧
        s = .object acc.rtn ∧ l' = acc.done := by
  rw [buildRevStatesJson, bind_apply_eq_ok]
  constructor
  · rintro ⟨acc, w₁, h1, h2⟩
    cases h2
    exact ⟨acc, h1, rfl, rfl⟩
  · rintro ⟨acc, h1, rfl, rfl⟩
    exact ⟨acc, w', h1, rfl⟩

/-- Whether it succeeds or fails, an invocation leaves the world its loop leaves. -/
theorem stateOf_buildRevStatesJson (l : List CredInfoProver) (w : World) :
    stateOf (buildRevStatesJson env parser l w) =
      stateOf (l.foldlM (buildRevStatesStep env parser) ⟨[], [], []⟩ w) := by
  rw [buildRevStatesJson, stateOf_bind_of_stateOf]
  intro _ _
  rfl

/-- A successful run ends with the invariant over the whole list. -/
theorem buildRevStatesJson_ok_inv (hnone : ∀ c ∈ l, c.timestamp = none) {w w' : World}
    {s : Json} {l' : List CredInfoProver}
    (h : buildRevStatesJson env parser l w = .ok (s, l') w') :
    ∃ acc, StampInv env l acc ∧ s = .object acc.rtn ∧ l' = acc.done := by
  obtain ⟨acc, h1, rfl, rfl⟩ := buildRevStatesJson_eq_ok.mp h
  exact ⟨acc, by simpa using StampInv.foldlM hnone (stampInv_nil env) h1, rfl, rfl⟩

end Result

/-- What `build_rev_states_json` returns. The object has one key per registry
    of the credentials carrying the three ids, each holding a single state
    under the decimal stamp of that registry. Every such credential carries
    that stamp, and the others keep `None`. Hence every timestamp that
    `build_requested_credentials_json` then writes names a state of the object. -/
theorem buildRevStatesJson_stamps (env : Env) (parser : JsonParser) (l : List CredInfoProver)
    (hnone : ∀ c ∈ l, c.timestamp = none) (w w' : World) (s : Json) (l' : List CredInfoProver)
    (h : buildRevStatesJson env parser l w = .ok (s, l') w') :
    ∃ (entries : List (String × Json)) (stampOf : String → Nat),
      s = .object entries ∧ (entries.map Prod.fst).Nodup ∧
      (∀ R, R ∈ entries.map Prod.fst ↔ ∃ c ∈ l, c.registry = some R) ∧
      (∀ R j, entries.lookup R = some j → ∃ v, j = .object [(toString (stampOf R), v)]) ∧
      l' = l.map (fun c => { c with timestamp := c.registry.map stampOf }) ∧
      ∀ (parser' : JsonParser) a req out,
        buildRequestedCredentialsJson parser' l' a req = .ok out →
        ∀ field ∈ ["requested_attributes", "requested_predicates"], ∀ k record (t : Nat),
          (out.index field).get k = some record → record.index "timestamp" = .number t →
          ∃ R v, entries.lookup R = some (.object [(toString t, v)]) := by
  obtain ⟨acc, hinv, rfl, rfl⟩ := buildRevStatesJson_ok_inv hnone h
  refine ⟨acc.rtn, acc.stampOf, rfl, hinv.nodup, fun R => ?_, fun R j => hinv.lookup_rtn,
    hinv.done_eq_map hnone, fun parser' a req out hout => hinv.timestamps_named hnone hout⟩
  rw [← lookup_isSome_iff_mem_keys, hinv.keys]

/-! ## Failures -/

/-- How the events `evs` that an invocation from `w` over `l` appended end,
    when it failed with `e`: with the calls of the refresh of a credential `c`
    of `l`, run on the cache that the events `pre` before it left, none of
    which failed. Either that refresh failed with `e` at its last call, the
    only one that failed; or it made no failed call and returned a state `j`
    that did not deserialize. -/
def FailureTrace (env : Env) (parser : JsonParser) (l : List CredInfoProver) (w : World)
    (e : VcxError) (evs : List Event) : Prop :=
  ∃ pre c R cr t calls, evs = pre ++ calls.map (Event.mk c) ∧
    (∀ x ∈ pre, x.call.failed = none) ∧ c ∈ l ∧ c.revocationIds = some (R, cr, t) ∧
    ((revStateFromCache env R cr t (intervalBounds c.revocationInterval).1
        (intervalBounds c.revocationInterval).2 ((w.recordAll pre).cache R cr) [] =
          .error e calls ∧
        ∃ front call, calls = front ++ [call] ∧ call.failed = some e ∧
          ∀ x ∈ front, x.failed = none) ∨
      ∃ j ts err, revStateFromCache env R cr t (intervalBounds c.revocationInterval).1
          (intervalBounds c.revocationInterval).2 ((w.recordAll pre).cache R cr) [] =
            .ok (j, ts) calls ∧
        (∀ x ∈ calls, x.failed = none) ∧ parser.parse j = .error err ∧
        e = .fromMsg .invalidJson ("Cannot deserialize RevocationState: " ++ err))

/-- The events an invocation appended, against its result: none failed when
    it succeeds, and they end as `FailureTrace` says when it fails. -/
def LogMatches (env : Env) (parser : JsonParser) (l : List CredInfoProver) (w : World)
    (evs : List Event) : EStateM.Result VcxError World (Json × List CredInfoProver) → Prop
  | .ok _ _ => ∀ x ∈ evs, x.call.failed = none
  | .error e _ => FailureTrace env parser l w e evs

theorem FailureTrace.mono {env : Env} {parser : JsonParser} {q l : List CredInfoProver}
    {w : World} {e : VcxError} {evs : List Event} (h : FailureTrace env parser q w e evs)
    (hsub : q ⊆ l) : FailureTrace env parser l w e evs :=
  let ⟨pre, c, R, cr, t, calls, hevs, hpre, hc, hrest⟩ := h
  ⟨pre, c, R, cr, t, calls, hevs, hpre, hsub hc, hrest⟩

section Failures

variable {env : Env} {parser : JsonParser} {c : CredInfoProver} {R cr t : String}
  {w w' : World}

theorem getRevState_ok_cases {fromTs toTs : Option Nat} {j : String} {ts : Nat}
    (h : getRevState env c R cr t fromTs toTs w = .ok (j, ts) w') :
    ∃ calls, revStateFromCache env R cr t fromTs toTs (w.cache R cr) [] = .ok (j, ts) calls ∧
      w' = w.recordAll (calls.map (Event.mk c)) := by
  rw [getRevState_apply] at h
  split at h
  · next calls hr =>
    cases h
    exact ⟨calls, hr, rfl⟩
  · cases h

theorem getRevState_error_cases {fromTs toTs : Option Nat} {e : VcxError}
    (h : getRevState env c R cr t fromTs toTs w = .error e w') :
    ∃ calls, revStateFromCache env R cr t fromTs toTs (w.cache R cr) [] = .error e calls ∧
      w' = w.recordAll (calls.map (Event.mk c)) := by
  rw [getRevState_apply] at h
  split at h
  · cases h
  · next calls hr =>
    cases h
    exact ⟨calls, hr, rfl⟩

/-- A failed state is either the refresh's failure or a failure to
    deserialize what the refresh returned. -/
theorem addRevState_error_cases {acc : Acc} {e : VcxError}
    (h : addRevState env parser acc c R cr t w = .error e w') :
    getRevState env c R cr t (intervalBounds c.revocationInterval).1
        (intervalBounds c.revocationInterval).2 w = .error e w' ∨
      ∃ j ts err, getRevState env c R cr t (intervalBounds c.revocationInterval).1
          (intervalBounds c.revocationInterval).2 w = .ok (j, ts) w' ∧
        parser.parse j = .error err ∧
        e = .fromMsg .invalidJson ("Cannot deserialize RevocationState: " ++ err) := by
  unfold addRevState at h
  generalize intervalBounds c.revocationInterval = b at h ⊢
  obtain ⟨fromTs, toTs⟩ := b
  rcases bind_apply_eq_error.mp h with hg | ⟨⟨j, ts⟩, w₁, hg, h⟩
  · exact .inl hg
  rcases bind_apply_eq_error.mp h with hp | ⟨v, w₂, hp, h⟩
  · rw [parseRevState_apply] at hp
    split at hp
    · cases hp
    · next err herr =>
      cases hp
      exact .inr ⟨j, ts, err, hg, herr, rfl⟩
  · cases h

/-- What a failing iteration did: it met the first credential of a registry
    not yet in `rtn`, and building that registry's state failed. -/
theorem buildRevStatesStep_error_cases {acc : Acc} {e : VcxError}
    (h : buildRevStatesStep env parser acc c w = .error e w') :
    ∃ R cr t, c.revocationIds = some (R, cr, t) ∧ acc.rtn.lookup R = none ∧
      addRevState env parser acc c R cr t w = .error e w' := by
  rw [buildRevStatesStep_eq] at h
  rcases hc : c.revocationIds with _ | ⟨R, cr, t⟩ <;> simp only [hc] at h
  · cases h
  split_ifs at h with hn
  · rcases bind_apply_eq_error.mp h with h1 | ⟨_, _, -, h2⟩
    · exact ⟨R, cr, t, rfl, Option.isNone_iff_eq_none.mp hn, h1⟩
    · cases h2
  · cases h

/-- A successful iteration replays the calls of its refresh, if it made one,
    and none of them failed. -/
theorem buildRevStatesStep_ok_world {acc acc' : Acc}
    (h : buildRevStatesStep env parser acc c w = .ok acc' w') :
    ∃ calls : List Call, w' = w.recordAll (calls.map (Event.mk c)) ∧
      ∀ x ∈ calls, x.failed = none := by
  rcases buildRevStatesStep_ok h with ⟨-, -, rfl⟩ | ⟨-, -, -, -, -, -, rfl⟩ |
      ⟨R, cr, t, j, ts, v, -, -, hg, -⟩
  · exact ⟨[], rfl, by simp⟩
  · exact ⟨[], rfl, by simp⟩
  · obtain ⟨calls, hr, rfl⟩ := getRevState_ok_cases hg
    exact ⟨calls, rfl, (revStateFromCache_ok_cases hr).1⟩

/-- A failing iteration, from the world that the failure-free events `pre`
    left, ends the events as `FailureTrace` says. -/
theorem buildRevStatesStep_error_trace {l : List CredInfoProver} {acc : Acc} {e : VcxError}
    {pre : List Event} (hc : c ∈ l) (hpre : ∀ x ∈ pre, x.call.failed = none)
    (h : buildRevStatesStep env parser acc c (w.recordAll pre) = .error e w') :
    ∃ evs, w' = w.recordAll evs ∧ FailureTrace env parser l w e evs := by
  obtain ⟨R, cr, t, hids, -, ha⟩ := buildRevStatesStep_error_cases h
  rcases addRevState_error_cases ha with hg | ⟨j, ts, err, hg, herr, rfl⟩
  · obtain ⟨calls, hr, rfl⟩ := getRevState_error_cases hg
    exact ⟨_, (World.recordAll_append _ _ _).symm, pre, c, R, cr, t, calls, rfl, hpre, hc, hids,
      .inl ⟨hr, revStateFromCache_error hr⟩⟩
  · obtain ⟨calls, hr, rfl⟩ := getRevState_ok_cases hg
    exact ⟨_, (World.recordAll_append _ _ _).symm, pre, c, R, cr, t, calls, rfl, hpre, hc, hids,
      .inr ⟨j, ts, err, hr, (revStateFromCache_ok_cases hr).1, herr, rfl⟩⟩

theorem buildRevStatesJson_eq_error {l : List CredInfoProver} {e : VcxError} :
    buildRevStatesJson env parser l w = .error e w' ↔
      l.foldlM (buildRevStatesStep env parser) ⟨[], [], []⟩ w = .error e w' := by
  rw [buildRevStatesJson, bind_apply_eq_error]
  constructor
  · rintro (h | ⟨_, _, -, h⟩)
    · exact h
    · cases h
  · exact .inl

/-- How an invocation reports a failure. The world it leaves is the one it
    started from with its events replayed. When it succeeds, none of its calls
    failed. When it fails, its events end with the refresh of a credential of
    the list, on the cache the earlier events left: that refresh failed with
    the error returned at its last call, the only failed call; or every call
    succeeded and the state that refresh returned did not deserialize. -/
theorem buildRevStatesJson_failures (env : Env) (parser : JsonParser) (l : List CredInfoProver)
    (w : World) : ∃ evs, stateOf (buildRevStatesJson env parser l w) = w.recordAll evs ∧
      LogMatches env parser l w evs (buildRevStatesJson env parser l w) := by
  let I : List CredInfoProver → Acc → World → Prop := fun _ _ s =>
    ∃ evs, s = w.recordAll evs ∧ ∀ x ∈ evs, x.call.failed = none
  have hI : ∀ p a b s a' s', I p a s → buildRevStatesStep env parser a b s = .ok a' s' →
      I (p ++ [b]) a' s' := by
    rintro - a b s a' s' ⟨evs, rfl, hok⟩ h
    obtain ⟨calls, rfl, hcalls⟩ := buildRevStatesStep_ok_world h
    exact ⟨evs ++ calls.map (Event.mk b), (World.recordAll_append _ _ _).symm,
      List.forall_mem_append.mpr ⟨hok, List.forall_mem_map.mpr hcalls⟩⟩
  have h0 : I [] ⟨[], [], []⟩ w := ⟨[], rfl, by simp⟩
  rcases hr : buildRevStatesJson env parser l w with ⟨⟨s, l'⟩, w'⟩ | ⟨e, w'⟩
  · obtain ⟨acc, hl, -⟩ := buildRevStatesJson_eq_ok.mp hr
    exact foldlM_ok_induction I (fun b _ p a => hI p a b) (p := []) h0 hl
  · obtain ⟨q, ⟨r, rfl⟩, evs, hw, htr⟩ := foldlM_error_induction I
      (fun q e s => ∃ evs, s = w.recordAll evs ∧ FailureTrace env parser q w e evs) hI
      (fun _ _ b _ _ _ ⟨pre, hs, hpre⟩ h => by
        subst hs
        exact buildRevStatesStep_error_trace (List.mem_append_right _ (List.mem_singleton_self b))
          hpre h)
      l [] h0 (buildRevStatesJson_eq_error.mp hr)
    exact ⟨evs, hw, htr.mono (List.subset_append_left q r)⟩

end Failures

/-! ## A registry shared by two windows -/

/-- A ledger that dates every bounded delta at its upper bound. -/
def boundDatingLedger : Env where
  getRevRegDefJson r := .ok (r, "def")
  getRevRegDeltaJson r _ t := .ok (r, "delta", t.getD 0)
  proverUpdateRevocationState _ _ _ _ _ := .ok "state"
  proverCreateRevocationState _ _ _ _ := .ok "state"

theorem boundDatingLedger_deltaWithinBound : boundDatingLedger.DeltaWithinBound := by
  rintro r f u r' d t ⟨⟩
  exact le_refl u

/-- A parser that knows the state the crypto engine answers. -/
def stateParser : JsonParser := .ofTable [("state", .object [])] (by decide)

/-- Two credentials of registry `R`; the first asks for a state no later than 10. -/
def looseBoundCred : CredInfoProver :=
  ⟨"a1", "ref1", "s", "d", some "R", some "1", some ⟨none, some 10⟩, some "tails", none⟩

/-- The second asks for a state no later than 5. -/
def tightBoundCred : CredInfoProver :=
  ⟨"a2", "ref2", "s", "d", some "R", some "2", some ⟨none, some 5⟩, some "tails", none⟩

theorem looseFirst_stamps :
    (∀ c ∈ [looseBoundCred, tightBoundCred], c.timestamp = none) ∧
      ∃ s w', buildRevStatesJson boundDatingLedger stateParser [looseBoundCred, tightBoundCred]
          World.empty = .ok (s, [{ looseBoundCred with timestamp := some 10 },
            { tightBoundCred with timestamp := some 10 }]) w' ∧
        ∃ (entries : List (String × Json)) (stampOf : String → Nat),
          s = .object entries ∧ (entries.map Prod.fst).Nodup ∧
          (∀ R, R ∈ entries.map Prod.fst ↔
            ∃ c ∈ [looseBoundCred, tightBoundCred], c.registry = some R) ∧
          [{ looseBoundCred with timestamp := some 10 },
              { tightBoundCred with timestamp := some 10 }] =
            [looseBoundCred, tightBoundCred].map
              (fun c => { c with timestamp := c.registry.map stampOf }) :=
  ⟨by decide, _, _, rfl,
    let ⟨entries, stampOf, hs, hnd, hkeys, _, hl, _⟩ := buildRevStatesJson_stamps
      boundDatingLedger stateParser [looseBoundCred, tightBoundCred] (by decide) World.empty _ _ _
      rfl
    ⟨entries, stampOf, hs, hnd, hkeys, hl⟩⟩

/-- The second credential gets the memoised 10, past its own bound 5, from a
    ledger that keeps within every bound. -/
theorem memoised_stamp_exceeds_bound :
    boundDatingLedger.DeltaWithinBound ∧
      (∃ w', buildRevStatesJson boundDatingLedger stateParser [looseBoundCred, tightBoundCred]
          World.empty = .ok (.object [("R", .object [("10", .object [])])],
            [{ looseBoundCred with timestamp := some 10 },
              { tightBoundCred with timestamp := some 10 }]) w') ∧
      tightBoundCred.revocationInterval = some ⟨none, some 5⟩ ∧ ¬ 10 ≤ 5 :=
  ⟨boundDatingLedger_deltaWithinBound, ⟨_, rfl⟩, rfl, by decide⟩

/-- With a ledger that keeps within every bound, the first credential of each
    registry is stamped within its own upper bound. Every later credential of
    the registry gets the same stamp, whatever its bound. -/
theorem buildRevStatesJson_first_within_bound (env : Env) (parser : JsonParser)
    (l : List CredInfoProver) (hnone : ∀ c ∈ l, c.timestamp = none)
    (henv : env.DeltaWithinBound) (w w' : World) (s : Json) (l' : List CredInfoProver)
    (h : buildRevStatesJson env parser l w = .ok (s, l') w') :
    ∃ stampOf : String → Nat,
      l' = l.map (fun c => { c with timestamp := c.registry.map stampOf }) ∧
      ∀ R c i u, firstOfRegistry R l = some c → c.revocationInterval = some i →
        i.«to» = some u → stampOf R ≤ u := by
  obtain ⟨acc, hinv, -, rfl⟩ := buildRevStatesJson_ok_inv hnone h
  refine ⟨acc.stampOf, hinv.done_eq_map hnone, fun R c i u hc hi hu => ?_⟩
  have hmem : c ∈ l := List.mem_of_find?_eq_some hc
  have hR : c.registry = some R := by simpa using List.find?_some hc
  obtain ⟨ts, hts⟩ := hinv.lookup_timestamps hmem hR
  obtain ⟨c', cr, t, entry, j, calls, hc', -, hr⟩ := hinv.origin R ts hts
  obtain rfl : c = c' := Option.some.inj (hc.symm.trans hc')
  rw [hi] at hr
  simp only [intervalBounds, hu] at hr
  simpa [Acc.stampOf, hts] using revStateFromCache_timestamp_le henv hr

theorem tightFirst_within_bound :
    (∀ c ∈ [tightBoundCred, looseBoundCred], c.timestamp = none) ∧
      boundDatingLedger.DeltaWithinBound ∧
      ∃ s w', buildRevStatesJson boundDatingLedger stateParser [tightBoundCred, looseBoundCred]
          World.empty = .ok (s, [{ tightBoundCred with timestamp := some 5 },
            { looseBoundCred with timestamp := some 5 }]) w' ∧
        ∃ stampOf : String → Nat, stampOf "R" ≤ 5 ∧
          [{ tightBoundCred with timestamp := some 5 },
              { looseBoundCred with timestamp := some 5 }] =
            [tightBoundCred, looseBoundCred].map
              (fun c => { c with timestamp := c.registry.map stampOf }) :=
  ⟨by decide, boundDatingLedger_deltaWithinBound, _, _, rfl,
    let ⟨stampOf, hl, hle⟩ := buildRevStatesJson_first_within_bound boundDatingLedger
      stateParser [tightBoundCred, looseBoundCred] (by decide) boundDatingLedger_deltaWithinBound
      World.empty _ _ _ rfl
    ⟨stampOf, hle "R" tightBoundCred _ 5 rfl rfl rfl, hl⟩⟩

end VcxProver

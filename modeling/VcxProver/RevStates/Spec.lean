/-
  VcxProver.RevStates.Spec

  What `build_rev_states_json` is for, said without its loop and its memo.
  Against a ledger that answers a delta query with the registry asked about,
  an invocation handles the registries of its credentials one after another,
  in order of first appearance. Each registry gets the state that the refresh
  of its first credential builds from the cache as the invocation found it,
  under the timestamp of that refresh, and every credential of the registry
  is stamped with that timestamp. The invocation fails when one of these
  refreshes or its parse fails. The world it leaves holds the calls of every
  registry's refresh, registry after registry.

  `revStatesSpec` and `specEvents` state this; `SpecInv` is the loop
  invariant that relates the loop to them, and
  `buildRevStatesJson_refines_spec` proves that the loop computes them.
-/
import VcxProver.RevStates.Registry

namespace VcxProver

/-! ## Registries in order of first appearance -/

/-- The registries of `l`, each once, in order of first appearance. -/
def registriesOf (l : List CredInfoProver) : List String :=
  l.foldl (fun rs c => match c.registry with
    | some R => if R ∈ rs then rs else rs ++ [R]
    | none => rs) []

theorem registriesOf_append_singleton (p : List CredInfoProver) (c : CredInfoProver) :
    registriesOf (p ++ [c]) = match c.registry with
      | some R => if R ∈ registriesOf p then registriesOf p else registriesOf p ++ [R]
      | none => registriesOf p := by
  rw [registriesOf, List.foldl_append]
  rfl

theorem mem_registriesOf {R : String} (l : List CredInfoProver) :
    R ∈ registriesOf l ↔ ∃ c ∈ l, c.registry = some R := by
  induction l using List.reverseRecOn with
  | nil => simp [registriesOf]
  | append_singleton p c ih =>
    simp only [registriesOf_append_singleton, List.mem_append, List.mem_singleton, or_and_right,
      exists_or, exists_eq_left, ← ih]
    rcases c.registry with _ | R'
    · simp
    · dsimp only
      split_ifs with h
      · exact ⟨.inl, fun h' => h'.elim id fun e => Option.some.inj e ▸ h⟩
      · simp [eq_comm]

section Append

variable {p : List CredInfoProver} {c : CredInfoProver}

theorem registriesOf_of_old (hold : ∀ R, c.registry = some R → ∃ c' ∈ p, c'.registry = some R) :
    registriesOf (p ++ [c]) = registriesOf p := by
  rw [registriesOf_append_singleton]
  rcases hc : c.registry with _ | R
  · rfl
  · exact if_pos ((mem_registriesOf p).mpr (hold R hc))

theorem not_mem_registriesOf {R : String} (hnew : ∀ c' ∈ p, c'.registry ≠ some R) :
    R ∉ registriesOf p := fun h =>
  let ⟨c', hc', hR⟩ := (mem_registriesOf p).mp h
  hnew c' hc' hR

theorem registriesOf_of_new {R : String} (hnew : ∀ c' ∈ p, c'.registry ≠ some R)
    (hreg : c.registry = some R) : registriesOf (p ++ [c]) = registriesOf p ++ [R] := by
  rw [registriesOf_append_singleton, hreg]
  exact if_neg (not_mem_registriesOf hnew)

end Append

/-! ## The specification -/

section Specification

variable (env : Env) (parser : JsonParser) (cache : String → String → RevRegCache)

/-- The state of registry `R`: the one the refresh of its first credential in
    `l` builds from `cache`, with the timestamp it is built for. -/
def registryOutcome (l : List CredInfoProver) (R : String) : Option (Nat × Json) :=
  (firstOfRegistry R l).bind (firstOutcome env parser cache)

/-- What `build_rev_states_json` is for. When the state of every registry of
    the credentials can be built, the object holds one state per registry, in
    order of first appearance and under its timestamp, and every credential
    carries its registry's timestamp. Otherwise the invocation fails. -/
def revStatesSpec (l : List CredInfoProver) : Option (Json × List CredInfoProver) :=
  if (registriesOf l).all fun R => (registryOutcome env parser cache l R).isSome then
    some (.object ((registriesOf l).filterMap fun R =>
        (registryOutcome env parser cache l R).map fun o => (R, .object [(toString o.1, o.2)])),
      l.map (stampWith ((registriesOf l).filterMap fun R =>
        (registryOutcome env parser cache l R).map fun o => (R, o.1))))
  else none

/-- The calls of an invocation: those of each registry's refresh, registry
    after registry. -/
def specEvents (l : List CredInfoProver) : List Event :=
  (registriesOf l).flatMap (registryEvents env cache l)

end Specification

section Events

variable {env : Env} {cache : String → String → RevRegCache} {p : List CredInfoProver}
  {c : CredInfoProver}

theorem specEvents_of_old (hold : ∀ R, c.registry = some R → ∃ c' ∈ p, c'.registry = some R) :
    specEvents env cache (p ++ [c]) = specEvents env cache p := by
  rw [specEvents, specEvents, registriesOf_of_old hold]
  refine List.flatMap_congr fun R _ => ?_
  rw [registryEvents, firstOfRegistry_append_singleton_of_old (hold R)]
  rfl

theorem specEvents_of_new {R : String} (hnew : ∀ c' ∈ p, c'.registry ≠ some R)
    (hreg : c.registry = some R) :
    specEvents env cache (p ++ [c]) =
      specEvents env cache p ++ (firstCalls env cache c).map (Event.mk c) := by
  rw [specEvents, specEvents, registriesOf_of_new hnew hreg, List.flatMap_append,
    List.flatMap_singleton, registryEvents_of_new R hnew hreg, if_pos rfl]
  congr 1
  refine List.flatMap_congr fun R' hR' => ?_
  have hne : R' ≠ R := fun e => not_mem_registriesOf hnew (e ▸ hR')
  rw [registryEvents_of_new R' hnew hreg, if_neg hne]

end Events

/-! ## The loop against the specification -/

/-- The loop after visiting `p` from world `w₀`: the registry invariant, the
    keys of `rtn` and of the memo in order of first appearance, and the world
    as the specification's calls leave `w₀`. -/
structure SpecInv (env : Env) (parser : JsonParser) (w₀ : World) (p : List CredInfoProver)
    (acc : Acc) (w : World) extends RegistryInv env parser w₀ p acc w : Prop where
  rtnOrder : acc.rtn.map Prod.fst = registriesOf p
  timestampsOrder : acc.timestamps.map Prod.fst = registriesOf p
  world : w = w₀.recordAll (specEvents env w₀.cache p)

section Loop

variable {env : Env} {parser : JsonParser} {w₀ w : World} {p : List CredInfoProver} {acc : Acc}

theorem specInv_nil (env : Env) (parser : JsonParser) (w₀ : World) :
    SpecInv env parser w₀ [] ⟨[], [], []⟩ w₀ :=
  ⟨registryInv_nil env parser w₀, rfl, rfl, rfl⟩

/-- An iteration, whether it succeeds or fails, replays the calls of the
    registry it opens, if it opens one. -/
theorem specEvents_step (hinv : RegistryInv env parser w₀ p acc w)
    (hw : w = w₀.recordAll (specEvents env w₀.cache p)) (c : CredInfoProver) :
    stateOf (buildRevStatesStep env parser acc c w) =
      w₀.recordAll (specEvents env w₀.cache (p ++ [c])) := by
  rw [buildRevStatesStep_world]
  rcases hc : c.revocationIds with _ | ⟨R, cr, t⟩
  · rw [specEvents_of_old (registry_old_of_none hc)]
    exact hw
  dsimp only
  split_ifs with hn
  · have hnew := hinv.not_registry_of_lookup_none (Option.isNone_iff_eq_none.mp hn)
    have hcalls : firstCalls env w.cache c = firstCalls env w₀.cache c := by
      simp only [firstCalls, hc, hinv.frozen.cache_fresh hnew]
    rw [specEvents_of_new hnew (registry_eq_some_of_revocationIds hc), World.recordAll_append,
      ← hw, hcalls]
  · rw [specEvents_of_old (hinv.registry_old hc (by
      simpa [Option.isNone_iff_eq_none, Option.ne_none_iff_isSome] using hn))]
    exact hw

/-- One successful iteration keeps the invariant. -/
theorem SpecInv.step (hid : env.KeepsRegistryId) (hinv : SpecInv env parser w₀ p acc w)
    {c : CredInfoProver} {acc' : Acc} {w' : World}
    (h : buildRevStatesStep env parser acc c w = .ok acc' w') :
    SpecInv env parser w₀ (p ++ [c]) acc' w' := by
  have hw := specEvents_step hinv.toRegistryInv hinv.world c
  rw [h] at hw
  have hkeys : acc'.rtn.map Prod.fst = registriesOf (p ++ [c]) ∧
      acc'.timestamps.map Prod.fst = registriesOf (p ++ [c]) := by
    rcases buildRevStatesStep_ok h with ⟨hids, rfl, -⟩ | ⟨R, cr, t, hids, hR, rfl, -⟩ |
      ⟨R, cr, t, j, ts, v, hids, hR, -, -, rfl⟩
    · rw [registriesOf_of_old (registry_old_of_none hids)]
      exact ⟨hinv.rtnOrder, hinv.timestampsOrder⟩
    · rw [registriesOf_of_old (hinv.registry_old hids hR)]
      exact ⟨hinv.rtnOrder, hinv.timestampsOrder⟩
    · have hts : acc.timestamps.lookup R = none := by
        rw [lookup_eq_none_iff_not_mem_keys, hinv.timestampsOrder, ← hinv.rtnOrder,
          ← lookup_eq_none_iff_not_mem_keys]
        exact hR
      rw [registriesOf_of_new (hinv.not_registry_of_lookup_none hR)
        (registry_eq_some_of_revocationIds hids), mapInsert_of_lookup_none _ hR,
        mapInsert_of_lookup_none _ hts, List.map_append, List.map_append, hinv.rtnOrder,
        hinv.timestampsOrder]
      exact ⟨rfl, rfl⟩
  exact ⟨hinv.toRegistryInv.step hid h, hkeys.1, hkeys.2, hw⟩

/-- For every registry of a successful loop, its specified state is in
    `rtn` and its timestamp in the memo. -/
theorem SpecInv.outcome (hinv : SpecInv env parser w₀ p acc w) {R : String}
    (hR : R ∈ registriesOf p) : ∃ ts v, registryOutcome env parser w₀.cache p R = some (ts, v) ∧
      acc.rtn.lookup R = some (.object [(toString ts, v)]) ∧ acc.timestamps.lookup R = some ts := by
  obtain ⟨c, hc⟩ := exists_firstOfRegistry ((mem_registriesOf p).mp hR)
  obtain ⟨ts, v, hout, hrtn, hts⟩ := hinv.outcomes R c hc
  exact ⟨ts, v, by rw [registryOutcome, hc, Option.some_bind, hout], hrtn, hts⟩

/-- A successful loop has computed the specification. -/
theorem SpecInv.spec (hinv : SpecInv env parser w₀ p acc w) :
    revStatesSpec env parser w₀.cache p =
      some (.object acc.rtn, p.map (stampWith acc.timestamps)) := by
  have hrtn : acc.rtn = (registriesOf p).filterMap fun R =>
      (registryOutcome env parser w₀.cache p R).map fun o => (R, .object [(toString o.1, o.2)]) := by
    conv_lhs => rw [eq_filterMap_lookup hinv.nodup]
    rw [hinv.rtnOrder]
    refine List.filterMap_congr fun R hR => ?_
    obtain ⟨ts, v, hout, hl, -⟩ := hinv.outcome hR
    rw [hl, hout]
    rfl
  have hts : acc.timestamps = (registriesOf p).filterMap fun R =>
      (registryOutcome env parser w₀.cache p R).map fun o => (R, o.1) := by
    have hnd : (acc.timestamps.map Prod.fst).Nodup := by
      rw [hinv.timestampsOrder, ← hinv.rtnOrder]
      exact hinv.nodup
    conv_lhs => rw [eq_filterMap_lookup hnd]
    rw [hinv.timestampsOrder]
    refine List.filterMap_congr fun R hR => ?_
    obtain ⟨ts, v, hout, -, hl⟩ := hinv.outcome hR
    rw [hl, hout]
    rfl
  rw [revStatesSpec, if_pos (List.all_eq_true.mpr fun R hR => by
    obtain ⟨ts, v, hout, -⟩ := hinv.outcome hR
    simp [hout]), hrtn, hts]

end Loop

/-! ## One invocation -/

/-- `build_rev_states_json` refines its specification, for a ledger that
    answers each delta query with the registry asked about and credentials
    not yet stamped. Whether it succeeds or fails, the world it leaves holds
    the specified calls of the credentials it visited, a prefix of the list.
    It succeeds exactly when the specification does, with the specification's
    revocation-states object and stamped credentials, having visited every
    credential. -/
theorem buildRevStatesJson_refines_spec {env : Env} (hid : env.KeepsRegistryId)
    (parser : JsonParser) (l : List CredInfoProver) (hnone : ∀ c ∈ l, c.timestamp = none)
    (w : World) :
    (∃ q, q <+: l ∧
      stateOf (buildRevStatesJson env parser l w) = w.recordAll (specEvents env w.cache q)) ∧
    match buildRevStatesJson env parser l w with
    | .ok r w' => revStatesSpec env parser w.cache l = some r ∧
        w' = w.recordAll (specEvents env w.cache l)
    | .error _ _ => revStatesSpec env parser w.cache l = none := by
  constructor
  · obtain ⟨q, hq, hw⟩ := stateOf_foldlM_prefix (RegistryInv env parser w)
      (fun p w' => w' = w.recordAll (specEvents env w.cache p))
      (fun _ _ _ _ _ _ hinv h => hinv.step hid h) (fun _ _ c _ hinv hw => specEvents_step hinv hw c)
      l [] ⟨[], [], []⟩ w (registryInv_nil env parser w) rfl
    rw [stateOf_buildRevStatesJson]
    exact ⟨q, hq, by simpa using hw⟩
  split
  · next r w' h =>
    obtain ⟨s, l'⟩ := r
    obtain ⟨acc, hfold, rfl, rfl⟩ := buildRevStatesJson_eq_ok.mp h
    have hinv : SpecInv env parser w l acc w' := by
      simpa using foldlM_ok_induction (SpecInv env parser w)
        (fun _ _ _ _ _ _ _ hinv h => hinv.step hid h) (specInv_nil env parser w) hfold
    have hs : StampInv env l acc := by simpa using StampInv.foldlM hnone (stampInv_nil env) hfold
    rw [hinv.spec, hs.done]
    exact ⟨rfl, hinv.world⟩
  · next e w' h =>
    have hfail : ¬ ∀ R c, firstOfRegistry R l = some c →
        (firstOutcome env parser w.cache c).isSome := fun hall => by
      obtain ⟨s, l', w'', h'⟩ := (buildRevStatesJson_isOk_iff hid).mpr hall
      rw [h'] at h
      cases h
    push_neg at hfail
    obtain ⟨R, c, hc, hout⟩ := hfail
    have hR : R ∈ registriesOf l := (mem_registriesOf l).mpr ⟨c, firstOfRegistry_spec hc⟩
    rw [revStatesSpec, if_neg fun hall => hout (by
      simpa [registryOutcome, hc] using List.all_eq_true.mp hall R hR)]

theorem looseFirst_refines_spec :
    (∀ c ∈ [looseBoundCred, tightBoundCred], c.timestamp = none) ∧
      ∃ r w', buildRevStatesJson boundDatingLedger stateParser [looseBoundCred, tightBoundCred]
          World.empty = .ok r w' ∧
        revStatesSpec boundDatingLedger stateParser World.empty.cache
          [looseBoundCred, tightBoundCred] = some r :=
  ⟨by decide, _, _, rfl, (buildRevStatesJson_refines_spec boundDatingLedger_keepsRegistryId
    stateParser [looseBoundCred, tightBoundCred] (by decide) World.empty).2.1⟩

/-! ## The error -/

section Error

variable (env : Env) (parser : JsonParser) (cache : String → String → RevRegCache)

/-- The error of the refresh of credential `c` from `cache`, or of the parse
    of the state it builds, when one of them fails. -/
def firstError (c : CredInfoProver) : Option VcxError :=
  match c.revocationIds with
  | some (R, cr, t) =>
    match revStateFromCache env R cr t (intervalBounds c.revocationInterval).1
        (intervalBounds c.revocationInterval).2 (cache R cr) [] with
    | .ok (j, _) _ =>
      match parser.parse j with
      | .ok _ => none
      | .error err => some (.fromMsg .invalidJson ("Cannot deserialize RevocationState: " ++ err))
    | .error e _ => some e
  | none => none

/-- The error an invocation fails with: that of the first registry, in order
    of first appearance, whose state cannot be built. -/
def revStatesSpecError (l : List CredInfoProver) : Option VcxError :=
  (registriesOf l).findSome? fun R => (firstOfRegistry R l).bind (firstError env parser cache)

end Error

theorem findSome?_congr {α β : Type} {f g : α → Option β} :
    ∀ {l : List α}, (∀ x ∈ l, f x = g x) → l.findSome? f = l.findSome? g
  | [], _ => rfl
  | x :: l, h => by
    rw [List.findSome?_cons, List.findSome?_cons, h x (List.mem_cons_self _ _),
      findSome?_congr fun y hy => h y (List.mem_cons_of_mem _ hy)]

theorem exists_registriesOf_append (p r : List CredInfoProver) :
    ∃ rs, registriesOf (p ++ r) = registriesOf p ++ rs := by
  induction r using List.reverseRecOn with
  | nil => exact ⟨[], by simp⟩
  | append_singleton r c ih =>
    obtain ⟨rs, hrs⟩ := ih
    rw [← List.append_assoc, registriesOf_append_singleton, hrs]
    rcases c.registry with _ | R
    · exact ⟨rs, rfl⟩
    · dsimp only
      split_ifs
      · exact ⟨rs, rfl⟩
      · exact ⟨rs ++ [R], by simp⟩

section ErrorLemmas

variable {env : Env} {parser : JsonParser} {cache : String → String → RevRegCache}

theorem firstError_eq_none_of_firstOutcome {c : CredInfoProver} {o : Nat × Json}
    (h : firstOutcome env parser cache c = some o) : firstError env parser cache c = none := by
  unfold firstOutcome at h
  unfold firstError
  rcases hids : c.revocationIds with _ | ⟨R, cr, t⟩ <;> simp only [hids, reduceCtorEq] at h ⊢
  rcases hr : revStateFromCache env R cr t (intervalBounds c.revocationInterval).1
    (intervalBounds c.revocationInterval).2 (cache R cr) [] with ⟨⟨j, ts⟩, calls⟩ | ⟨e, calls⟩ <;>
    simp only [hr, reduceCtorEq] at h ⊢
  rcases hp : parser.parse j with err | v <;>
    simp only [hp, Except.toOption, Option.map_none', reduceCtorEq] at h ⊢

/-- A state that fails to build, from a world holding the entry of `cache`
    that the refresh reads, fails with the error `firstError` names. -/
theorem firstError_of_addRevState_error {acc : Acc} {c : CredInfoProver} {R cr t : String}
    {w w' : World} {e : VcxError} (hfresh : w.cache R cr = cache R cr)
    (hids : c.revocationIds = some (R, cr, t))
    (h : addRevState env parser acc c R cr t w = .error e w') :
    firstError env parser cache c = some e := by
  unfold firstError
  simp only [hids, ← hfresh]
  rcases addRevState_error_cases h with hg | ⟨j, ts, err, hg, herr, rfl⟩
  · obtain ⟨calls, hr, -⟩ := getRevState_error_cases hg
    simp only [hr]
  · obtain ⟨calls, hr⟩ := getRevState_ok hg
    simp only [hr, herr]

/-- The error named for a list is named for every extension of it. -/
theorem revStatesSpecError_append {q : List CredInfoProver} {e : VcxError}
    (h : revStatesSpecError env parser cache q = some e) (r : List CredInfoProver) :
    revStatesSpecError env parser cache (q ++ r) = some e := by
  obtain ⟨rs, hrs⟩ := exists_registriesOf_append q r
  have hq : (registriesOf q).findSome? (fun R =>
      (firstOfRegistry R (q ++ r)).bind (firstError env parser cache)) = some e :=
    (findSome?_congr fun R hR => by
      obtain ⟨c, hc⟩ := exists_firstOfRegistry ((mem_registriesOf q).mp hR)
      rw [firstOfRegistry_append_of_some hc, hc]).trans h
  rw [revStatesSpecError, hrs, List.findSome?_append, hq]
  rfl

variable {w₀ w : World} {p : List CredInfoProver} {acc : Acc}

/-- Every registry visited so far built its state, so it names no error. -/
theorem RegistryInv.firstError_eq_none (hinv : RegistryInv env parser w₀ p acc w) {R : String}
    (hR : R ∈ registriesOf p) (r : List CredInfoProver) :
    (firstOfRegistry R (p ++ r)).bind (firstError env parser w₀.cache) = none := by
  obtain ⟨c, hc⟩ := exists_firstOfRegistry ((mem_registriesOf p).mp hR)
  obtain ⟨ts, v, hout, -⟩ := hinv.outcomes R c hc
  rw [firstOfRegistry_append_of_some hc, Option.some_bind]
  exact firstError_eq_none_of_firstOutcome hout

/-- An iteration that fails meets the first credential of a new registry, and
    fails with the error the specification names for the credentials visited. -/
theorem RegistryInv.step_error (hinv : RegistryInv env parser w₀ p acc w) {c : CredInfoProver}
    {e : VcxError} {w' : World} (h : buildRevStatesStep env parser acc c w = .error e w') :
    revStatesSpecError env parser w₀.cache (p ++ [c]) = some e := by
  obtain ⟨R, cr, t, hids, hR, ha⟩ := buildRevStatesStep_error_cases h
  have hnew := hinv.toMemoInv.not_registry_of_lookup_none hR
  have hreg := registry_eq_some_of_revocationIds hids
  have hprev : (registriesOf p).findSome? (fun R' =>
      (firstOfRegistry R' (p ++ [c])).bind (firstError env parser w₀.cache)) = none :=
    List.findSome?_eq_none_iff.mpr fun R' hR' => hinv.firstError_eq_none hR' [c]
  rw [revStatesSpecError, registriesOf_of_new hnew hreg, List.findSome?_append, hprev]
  simp only [List.findSome?_cons, List.findSome?_nil, firstOfRegistry_append_singleton hnew hreg,
    Option.some_bind, firstError_of_addRevState_error (hinv.frozen.cache_fresh hnew cr) hids ha,
    Option.none_or]

end ErrorLemmas

/-- The error an invocation returns is the one the specification names. With
    a ledger that keeps registry ids, an invocation succeeds exactly when
    `revStatesSpecError` names no error. Otherwise it fails with the error of
    the first registry, in order of first appearance, whose refresh from the
    cache the invocation found, or the parse of that refresh's state, fails. -/
theorem buildRevStatesJson_error_refines_spec {env : Env} (hid : env.KeepsRegistryId)
    (parser : JsonParser) (l : List CredInfoProver) (w : World) :
    match buildRevStatesJson env parser l w with
    | .ok _ _ => revStatesSpecError env parser w.cache l = none
    | .error e _ => revStatesSpecError env parser w.cache l = some e := by
  split
  · next r w' h =>
    obtain ⟨s, l'⟩ := r
    obtain ⟨acc, hinv, -⟩ := buildRevStatesJson_ok_registryInv hid h
    exact List.findSome?_eq_none_iff.mpr fun R hR => by
      simpa using hinv.firstError_eq_none hR []
  · next e w' h =>
    obtain ⟨q, ⟨r, rfl⟩, hq⟩ := foldlM_error_induction (RegistryInv env parser w)
      (fun q e _ => revStatesSpecError env parser w.cache q = some e)
      (fun _ _ _ _ _ _ hinv h => hinv.step hid h) (fun _ _ _ _ _ _ hinv h => hinv.step_error h)
      l [] (registryInv_nil env parser w) (buildRevStatesJson_eq_error.mp h)
    exact revStatesSpecError_append (by simpa using hq) r

/-- A ledger that has no definition for any registry. -/
def missingDefLedger : Env :=
  { boundDatingLedger with
    getRevRegDefJson := fun _ => .error (.fromMsg .invalidLedgerResponse "no definition") }

theorem missingDefLedger_keepsRegistryId : missingDefLedger.KeepsRegistryId :=
  boundDatingLedger_keepsRegistryId

theorem missingDef_error_named :
    missingDefLedger.KeepsRegistryId ∧
      ∃ w', buildRevStatesJson missingDefLedger stateParser [looseBoundCred, tightBoundCred]
          World.empty = .error (.fromMsg .invalidLedgerResponse "no definition") w' ∧
        revStatesSpecError missingDefLedger stateParser World.empty.cache
          [looseBoundCred, tightBoundCred] = some (.fromMsg .invalidLedgerResponse "no definition") :=
  ⟨missingDefLedger_keepsRegistryId, _, rfl, buildRevStatesJson_error_refines_spec
    missingDefLedger_keepsRegistryId stateParser [looseBoundCred, tightBoundCred] World.empty⟩

end VcxProver

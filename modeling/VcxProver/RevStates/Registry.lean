/-
  VcxProver.RevStates.Registry

  One invocation of `build_rev_states_json`, registry by registry. Assume the
  ledger answers a delta query with the registry it was asked about. Then a
  registry's refresh reads and writes only that registry's cache entries.
  Each registry is therefore handled as if the cache were still the one the
  invocation started with, by the first credential of the registry in the
  list, and by that credential alone. `FrozenInv` states this of the world and
  `RegistryInv` of the output. From them follow the calls made per registry,
  that the reuse branch leaves its registry untouched, and that reordering the
  credentials changes nothing when those of one registry agree on what the
  refresh reads.
-/
import VcxProver.RevStates.Stamp

namespace VcxProver

/-- The ledger answers a delta query with the id of the registry asked about. -/
def Env.KeepsRegistryId (env : Env) : Prop :=
  ∀ r f t r' d ts, env.getRevRegDeltaJson r f t = .ok (r', d, ts) → r' = r

/-- With such a ledger every call of a refresh names the registry refreshed,
    its cache writes included. -/
theorem RefreshCalls.names {env : Env} {R cr : String} {entry : RevRegCache} {calls : List Call}
    (hid : env.KeepsRegistryId) (h : RefreshCalls env R cr entry calls) :
    ∀ call ∈ calls, ∀ r, call.revRegId = some r → r = R := by
  intro call hcall r hr
  cases call with
  | getRevRegDefJson => exact Option.some.inj (hr.symm.trans (h.fetchesNamed _ hcall (.inl rfl)))
  | getRevRegDeltaJson => exact Option.some.inj (hr.symm.trans (h.fetchesNamed _ hcall (.inr rfl)))
  | proverUpdateRevocationState => cases hr
  | proverCreateRevocationState => cases hr
  | setRevRegCache r' c x =>
    obtain rfl : r' = r := Option.some.inj hr
    obtain ⟨-, s, -, -, f, t, d, hd, -⟩ := h.writes _ _ _ hcall
    exact hid _ _ _ _ _ _ (h.answered _ hd).symm

/-! ## Cache frames -/

section Frame

variable {R cr : String}

theorem World.record_cache_of_ne {w : World} {e : Event}
    (h : ∀ x, e.call ≠ .setRevRegCache R cr x) : (w.record e).cache R cr = w.cache R cr := by
  obtain ⟨ci, call⟩ := e
  cases call with
  | setRevRegCache r c x =>
    simp only [World.record, setCache]
    split_ifs with hk
    · obtain ⟨rfl, rfl⟩ := hk
      exact absurd rfl (h x)
    · rfl
  | _ => rfl

theorem World.recordAll_cache_of_ne {w : World} {evs : List Event}
    (h : ∀ e ∈ evs, ∀ x, e.call ≠ .setRevRegCache R cr x) :
    (w.recordAll evs).cache R cr = w.cache R cr := by
  induction evs generalizing w with
  | nil => rfl
  | cons e evs ih =>
    rw [World.recordAll_cons, ih fun e' he' => h e' (by simp [he']),
      World.record_cache_of_ne (h e (by simp))]

/-- What a run of events leaves under a key depends only on what was there. -/
theorem World.recordAll_cache_congr {w₁ w₂ : World} (h : w₁.cache R cr = w₂.cache R cr)
    (evs : List Event) : (w₁.recordAll evs).cache R cr = (w₂.recordAll evs).cache R cr := by
  induction evs generalizing w₁ w₂ with
  | nil => exact h
  | cons e evs ih =>
    apply ih
    obtain ⟨ci, call⟩ := e
    cases call with
    | setRevRegCache r c x =>
      simp only [World.record, setCache]
      split_ifs
      · rfl
      · exact h
    | _ => exact h

end Frame

/-! ## The world after one iteration -/

/-- The calls of credential `c`'s refresh, reading `cache`. -/
def firstCalls (env : Env) (cache : String → String → RevRegCache) (c : CredInfoProver) :
    List Call :=
  match c.revocationIds with
  | some (R, cr, t) => callsOf (revStateFromCache env R cr t (intervalBounds c.revocationInterval).1
      (intervalBounds c.revocationInterval).2 (cache R cr))
  | none => []

section StepWorld

variable {env : Env} {parser : JsonParser}

theorem firstCalls_refresh {cache : String → String → RevRegCache} {c : CredInfoProver}
    {R cr t : String} (hc : c.revocationIds = some (R, cr, t)) :
    RefreshCalls env R cr (cache R cr) (firstCalls env cache c) := by
  rw [firstCalls, hc]
  exact revStateFromCache_calls

theorem getRevState_world (c : CredInfoProver) (R cr t : String) (fromTs toTs : Option Nat)
    (w : World) : stateOf (getRevState env c R cr t fromTs toTs w) =
      w.recordAll ((callsOf (revStateFromCache env R cr t fromTs toTs (w.cache R cr))).map
        (Event.mk c)) := by
  rw [getRevState_apply, callsOf]
  cases revStateFromCache env R cr t fromTs toTs (w.cache R cr) [] <;> rfl

theorem addRevState_world {acc : Acc} {c : CredInfoProver} {R cr t : String} {w : World} :
    stateOf (addRevState env parser acc c R cr t w) =
      stateOf (getRevState env c R cr t (intervalBounds c.revocationInterval).1
        (intervalBounds c.revocationInterval).2 w) := by
  rcases h : addRevState env parser acc c R cr t w with ⟨⟨c', acc'⟩, w'⟩ | ⟨e, w'⟩
  · obtain ⟨j, ts, v, hg, -⟩ := addRevState_ok h
    rw [hg]
    rfl
  · exact (addRevState_error h).symm

/-- An iteration changes the world only for the first credential of a
    registry, by its refresh's calls. -/
theorem buildRevStatesStep_world (acc : Acc) (c : CredInfoProver) (w : World) :
    stateOf (buildRevStatesStep env parser acc c w) =
      match c.revocationIds with
      | some (R, _, _) => if (acc.rtn.lookup R).isNone then
          w.recordAll ((firstCalls env w.cache c).map (Event.mk c)) else w
      | none => w := by
  rw [buildRevStatesStep_eq]
  rcases hc : c.revocationIds with _ | ⟨R, cr, t⟩ <;> simp only
  · rfl
  split_ifs
  · rw [stateOf_bind_of_stateOf, addRevState_world, getRevState_world]
    · simp only [firstCalls, hc]
    · intro _ _
      rfl
  · rfl

end StepWorld

/-! ## The world invariant -/

/-- The events of registry `R` in a run over `p` that reads `cache`: the calls
    of its first credential's refresh, tagged with that credential. -/
def registryEvents (env : Env) (cache : String → String → RevRegCache) (p : List CredInfoProver)
    (R : String) : List Event :=
  match firstOfRegistry R p with
  | some c => (firstCalls env cache c).map (Event.mk c)
  | none => []

/-- The world after visiting `p`, against the world `w₀` the invocation
    started in. The log has grown by events of credentials with the three ids,
    and those of each registry are the calls of its first credential's refresh
    on the cache of `w₀`. Each registry's cache entries are what these calls
    leave in `w₀`. -/
structure FrozenInv (env : Env) (w₀ : World) (p : List CredInfoProver) (w : World) : Prop where
  log : ∃ evs, w.log = w₀.log ++ evs ∧ (∀ e ∈ evs, e.credInfo.registry.isSome) ∧
    ∀ R, evs.filter (fun e => e.credInfo.registry = some R) = registryEvents env w₀.cache p R
  cache : ∀ R cr, w.cache R cr = (w₀.recordAll (registryEvents env w₀.cache p R)).cache R cr

section Frozen

variable {env : Env} {parser : JsonParser} {w₀ w : World} {p : List CredInfoProver}
  {cache : String → String → RevRegCache}

theorem frozenInv_nil (env : Env) (w₀ : World) : FrozenInv env w₀ [] w₀ :=
  ⟨⟨[], by simp, by simp, fun R => by simp [registryEvents, firstOfRegistry]⟩,
    fun R cr => by simp [registryEvents, firstOfRegistry]⟩

theorem registryEvents_of_not_registry {R : String} (h : ∀ c ∈ p, c.registry ≠ some R) :
    registryEvents env cache p R = [] := by
  have : firstOfRegistry R p = none := by simpa [firstOfRegistry, List.find?_eq_none] using h
  simp [registryEvents, this]

theorem registryEvents_of_first {R : String} {c : CredInfoProver}
    (hf : firstOfRegistry R p = some c) :
    registryEvents env cache p R = (firstCalls env cache c).map (Event.mk c) := by
  rw [registryEvents, hf]

/-- The first credential of a new registry opens its events; those of the
    other registries stay. -/
theorem registryEvents_of_new {R : String} {c : CredInfoProver} (R' : String)
    (hnew : ∀ c' ∈ p, c'.registry ≠ some R) (hreg : c.registry = some R) :
    registryEvents env cache (p ++ [c]) R' =
      if R' = R then (firstCalls env cache c).map (Event.mk c)
      else registryEvents env cache p R' := by
  split_ifs with hRR
  · subst hRR
    exact registryEvents_of_first (firstOfRegistry_append_singleton hnew hreg)
  · rw [registryEvents, firstOfRegistry_append_singleton_of_old fun h =>
      absurd (Option.some.inj (hreg.symm.trans h)) (Ne.symm hRR)]
    rfl

/-- An event of registry `R` is a call of its first credential's refresh. -/
theorem mem_registryEvents {R : String} {e : Event} (he : e ∈ registryEvents env cache p R) :
    ∃ c call, firstOfRegistry R p = some c ∧ call ∈ firstCalls env cache c ∧ e = ⟨c, call⟩ := by
  rcases hf : firstOfRegistry R p with _ | c
  · simp [registryEvents, hf] at he
  obtain ⟨call, hcall, rfl⟩ := List.mem_map.mp (registryEvents_of_first hf ▸ he)
  exact ⟨c, call, rfl, hcall, rfl⟩

theorem filter_tagged (c : CredInfoProver) (calls : List Call) (R : String) :
    (calls.map (Event.mk c)).filter (fun e => e.credInfo.registry = some R) =
      if c.registry = some R then calls.map (Event.mk c) else [] := by
  split_ifs with h <;> simp [List.filter_map, Function.comp_def, h]

/-- A registry not yet visited still has the entries the invocation found. -/
theorem FrozenInv.cache_fresh (hfr : FrozenInv env w₀ p w) {R : String}
    (hnew : ∀ c ∈ p, c.registry ≠ some R) (cr : String) : w.cache R cr = w₀.cache R cr := by
  rw [hfr.cache, registryEvents_of_not_registry hnew]
  rfl

theorem FrozenInv.push_old (hfr : FrozenInv env w₀ p w) {c : CredInfoProver}
    (hold : ∀ R, c.registry = some R → ∃ c' ∈ p, c'.registry = some R) :
    FrozenInv env w₀ (p ++ [c]) w := by
  have heq : ∀ R, registryEvents env w₀.cache (p ++ [c]) R = registryEvents env w₀.cache p R :=
    fun R => by rw [registryEvents, firstOfRegistry_append_singleton_of_old (hold R)]; rfl
  obtain ⟨⟨evs, hlog, htag, hfilter⟩, hcache⟩ := hfr
  exact ⟨⟨evs, hlog, htag, fun R => by rw [heq, hfilter]⟩, fun R cr => by rw [heq, hcache]⟩

/-- The first credential of a new registry runs its refresh on the cache as
    the invocation found it. -/
theorem FrozenInv.push_new (hid : env.KeepsRegistryId) (hfr : FrozenInv env w₀ p w)
    {c : CredInfoProver} {R cr t : String} (hc : c.revocationIds = some (R, cr, t))
    (hnew : ∀ c' ∈ p, c'.registry ≠ some R) :
    FrozenInv env w₀ (p ++ [c]) (w.recordAll ((firstCalls env w.cache c).map (Event.mk c))) := by
  have hreg := registry_eq_some_of_revocationIds hc
  have hR : registryEvents env w₀.cache p R = [] := registryEvents_of_not_registry hnew
  have hfresh := hfr.cache_fresh hnew
  have hcalls : firstCalls env w.cache c = firstCalls env w₀.cache c := by
    simp only [firstCalls, hc, hfresh]
  obtain ⟨⟨evs, hlog, htag, hfilter⟩, hcache⟩ := hfr
  rw [hcalls]
  refine ⟨⟨evs ++ (firstCalls env w₀.cache c).map (Event.mk c), by simp [hlog], ?_, fun R' => ?_⟩,
    fun R' cr' => ?_⟩
  · intro e he
    rcases List.mem_append.mp he with he | he
    · exact htag e he
    · obtain ⟨call, -, rfl⟩ := List.mem_map.mp he
      simp [hreg]
  · rw [List.filter_append, hfilter, filter_tagged, registryEvents_of_new R' hnew hreg, hreg]
    by_cases hRR : R' = R
    · subst hRR
      simp [hR]
    · simp [hRR, Ne.symm hRR]
  · rw [registryEvents_of_new R' hnew hreg]
    by_cases hRR : R' = R
    · subst hRR
      rw [if_pos rfl]
      exact World.recordAll_cache_congr (hfresh cr') _
    · rw [if_neg hRR, World.recordAll_cache_of_ne, hcache]
      rintro e he x hx
      obtain ⟨call, hcall, rfl⟩ := List.mem_map.mp he
      subst hx
      exact hRR ((firstCalls_refresh hc).names hid _ hcall R' rfl)

/-- One iteration, whether it succeeds or fails, keeps the world invariant. -/
theorem FrozenInv.step (hid : env.KeepsRegistryId) {acc : Acc} (hmemo : MemoInv env p acc)
    (hfr : FrozenInv env w₀ p w) (c : CredInfoProver) :
    FrozenInv env w₀ (p ++ [c]) (stateOf (buildRevStatesStep env parser acc c w)) := by
  rw [buildRevStatesStep_world]
  rcases hc : c.revocationIds with _ | ⟨R, cr, t⟩
  · exact hfr.push_old (registry_old_of_none hc)
  dsimp only
  split_ifs with hn
  · exact hfr.push_new hid hc
      (hmemo.not_registry_of_lookup_none (Option.isNone_iff_eq_none.mp hn))
  · exact hfr.push_old (hmemo.registry_old hc (by
      simpa [Option.isNone_iff_eq_none, Option.ne_none_iff_isSome] using hn))

end Frozen

/-! ## The output -/

/-- The state the refresh of credential `c` builds from `cache`, under its
    timestamp, when the refresh and the parse succeed. -/
def firstOutcome (env : Env) (parser : JsonParser) (cache : String → String → RevRegCache)
    (c : CredInfoProver) : Option (Nat × Json) :=
  match c.revocationIds with
  | some (R, cr, t) =>
    match revStateFromCache env R cr t (intervalBounds c.revocationInterval).1
        (intervalBounds c.revocationInterval).2 (cache R cr) [] with
    | .ok (j, ts) _ => (parser.parse j).toOption.map fun v => (ts, v)
    | .error _ _ => none
  | none => none

/-- The loop after visiting `p` from world `w₀`: the memo, the world
    invariant, and for each registry of `p` the state that its first
    credential's refresh builds from the cache of `w₀`. -/
structure RegistryInv (env : Env) (parser : JsonParser) (w₀ : World) (p : List CredInfoProver)
    (acc : Acc) (w : World) extends MemoInv env p acc : Prop where
  frozen : FrozenInv env w₀ p w
  outcomes : ∀ R c, firstOfRegistry R p = some c → ∃ ts v,
    firstOutcome env parser w₀.cache c = some (ts, v) ∧
    acc.rtn.lookup R = some (.object [(toString ts, v)]) ∧ acc.timestamps.lookup R = some ts

section Output

variable {env : Env} {parser : JsonParser} {w₀ w : World} {p : List CredInfoProver} {acc : Acc}

theorem registryInv_nil (env : Env) (parser : JsonParser) (w₀ : World) :
    RegistryInv env parser w₀ [] ⟨[], [], []⟩ w₀ :=
  ⟨(stampInv_nil env).toMemoInv, frozenInv_nil env w₀, by simp [firstOfRegistry]⟩

theorem getRevState_ok {c : CredInfoProver} {R cr t : String} {fromTs toTs : Option Nat}
    {a : String × Nat} {w' : World} (h : getRevState env c R cr t fromTs toTs w = .ok a w') :
    ∃ calls, revStateFromCache env R cr t fromTs toTs (w.cache R cr) [] = .ok a calls := by
  rw [getRevState_apply] at h
  split at h
  · next calls hr =>
    cases h
    exact ⟨calls, hr⟩
  · cases h

theorem firstOutcome_eq_some {cache : String → String → RevRegCache} {c : CredInfoProver}
    {R cr t j : String} {ts : Nat} {calls : List Call} {v : Json}
    (hc : c.revocationIds = some (R, cr, t))
    (hr : revStateFromCache env R cr t (intervalBounds c.revocationInterval).1
      (intervalBounds c.revocationInterval).2 (cache R cr) [] = .ok (j, ts) calls)
    (hp : parser.parse j = .ok v) : firstOutcome env parser cache c = some (ts, v) := by
  simp [firstOutcome, hc, hr, hp, Except.toOption]

/-- A built state comes from a successful refresh, whose calls are those
    of `firstCalls`, and a successful parse. -/
theorem firstOutcome_eq_some_inv {cache : String → String → RevRegCache} {c : CredInfoProver}
    {ts : Nat} {v : Json} (h : firstOutcome env parser cache c = some (ts, v)) :
    ∃ R cr t j, c.revocationIds = some (R, cr, t) ∧
      revStateFromCache env R cr t (intervalBounds c.revocationInterval).1
        (intervalBounds c.revocationInterval).2 (cache R cr) [] =
        .ok (j, ts) (firstCalls env cache c) ∧ parser.parse j = .ok v := by
  unfold firstOutcome at h
  rcases hids : c.revocationIds with _ | ⟨R, cr, t⟩ <;> simp only [hids] at h
  · cases h
  rcases hr : revStateFromCache env R cr t (intervalBounds c.revocationInterval).1
    (intervalBounds c.revocationInterval).2 (cache R cr) [] with ⟨⟨j, ts'⟩, calls⟩ | ⟨e, calls⟩ <;>
    simp only [hr, reduceCtorEq] at h
  rcases hp : parser.parse j with err | v' <;>
    simp only [hp, Except.toOption, Option.map_none', Option.map_some', reduceCtorEq,
      Option.some.injEq, Prod.mk.injEq] at h
  obtain ⟨rfl, rfl⟩ := h
  have hcalls : firstCalls env cache c = calls := by simp only [firstCalls, hids, callsOf, hr, stateOf_ok]
  exact ⟨R, cr, t, j, rfl, hcalls ▸ hr, hp⟩

theorem addRevState_eq_ok {c : CredInfoProver} {R cr t j : String} {ts : Nat} {w' : World}
    {v : Json} (hg : getRevState env c R cr t (intervalBounds c.revocationInterval).1
      (intervalBounds c.revocationInterval).2 w = .ok (j, ts) w')
    (hp : parser.parse j = .ok v) :
    addRevState env parser acc c R cr t w = .ok ({ c with timestamp := some ts },
      { acc with rtn := mapInsert R (.object [(toString ts, v)]) acc.rtn
                 timestamps := mapInsert R ts acc.timestamps }) w' := by
  unfold addRevState
  generalize intervalBounds c.revocationInterval = b at hg ⊢
  obtain ⟨fromTs, toTs⟩ := b
  dsimp only at hg ⊢
  exact bind_apply_eq_ok.mpr ⟨(j, ts), w', hg,
    bind_apply_eq_ok.mpr ⟨v, w', by rw [parseRevState_apply, hp], rfl⟩⟩

/-- One successful iteration keeps the invariant. -/
theorem RegistryInv.step (hid : env.KeepsRegistryId) (hinv : RegistryInv env parser w₀ p acc w)
    {c : CredInfoProver} {acc' : Acc} {w' : World}
    (h : buildRevStatesStep env parser acc c w = .ok acc' w') :
    RegistryInv env parser w₀ (p ++ [c]) acc' w' := by
  have hfr : FrozenInv env w₀ (p ++ [c]) (stateOf (buildRevStatesStep env parser acc c w)) :=
    hinv.frozen.step hid hinv.toMemoInv c
  rw [h] at hfr
  refine ⟨hinv.toMemoInv.step h, hfr, ?_⟩
  rcases buildRevStatesStep_ok h with ⟨hids, rfl, -⟩ | ⟨R, cr, t, hids, hR, rfl, -⟩ |
    ⟨R, cr, t, j, ts, v, hids, hR, hg, hp, rfl⟩
  · intro R' c' hf
    rw [firstOfRegistry_append_singleton_of_old (registry_old_of_none hids R')] at hf
    exact hinv.outcomes R' c' hf
  · intro R' c' hf
    rw [firstOfRegistry_append_singleton_of_old (hinv.registry_old hids hR R')] at hf
    exact hinv.outcomes R' c' hf
  · have hreg := registry_eq_some_of_revocationIds hids
    have hnew := hinv.not_registry_of_lookup_none hR
    intro R' c' hf
    by_cases hRR : R' = R
    · subst hRR
      rw [firstOfRegistry_append_singleton hnew hreg, Option.some.injEq] at hf
      subst hf
      obtain ⟨calls, hr⟩ := getRevState_ok hg
      rw [hinv.frozen.cache_fresh hnew] at hr
      exact ⟨ts, v, firstOutcome_eq_some hids hr hp, by simp, by simp⟩
    · rw [firstOfRegistry_append_singleton_of_old fun h =>
        absurd (Option.some.inj (hreg.symm.trans h)) (Ne.symm hRR)] at hf
      obtain ⟨ts', v', hout, hrtn, hts⟩ := hinv.outcomes R' c' hf
      exact ⟨ts', v', hout, by rwa [lookup_mapInsert_ne _ _ hRR],
        by rwa [lookup_mapInsert_ne _ _ hRR]⟩

/-- An iteration succeeds when the credential's refresh, if it is the first
    of its registry, succeeds from the cache of `w₀`. -/
theorem RegistryInv.step_isOk (hinv : RegistryInv env parser w₀ p acc w) (c : CredInfoProver)
    (hout : ∀ R, c.registry = some R → (∀ c' ∈ p, c'.registry ≠ some R) →
      (firstOutcome env parser w₀.cache c).isSome) :
    ∃ acc' w', buildRevStatesStep env parser acc c w = .ok acc' w' := by
  rw [buildRevStatesStep_eq]
  rcases hc : c.revocationIds with _ | ⟨R, cr, t⟩
  · exact ⟨_, _, rfl⟩
  dsimp only
  split_ifs with hn
  · have hnew := hinv.not_registry_of_lookup_none (Option.isNone_iff_eq_none.mp hn)
    obtain ⟨⟨ts, v⟩, hsome⟩ :=
      Option.isSome_iff_exists.mp (hout R (registry_eq_some_of_revocationIds hc) hnew)
    simp only [firstOutcome, hc, ← hinv.frozen.cache_fresh hnew] at hsome
    split at hsome
    · next j ts' calls hr =>
      rcases hp : parser.parse j with err | v' <;>
        simp only [hp, Except.toOption, Option.map_none', reduceCtorEq] at hsome
      have hg : getRevState env c R cr t (intervalBounds c.revocationInterval).1
          (intervalBounds c.revocationInterval).2 w =
            .ok (j, ts') (w.recordAll (calls.map (Event.mk c))) := by
        rw [getRevState_apply, hr]
      exact ⟨_, _, bind_apply_eq_ok.mpr ⟨_, _, addRevState_eq_ok hg hp, rfl⟩⟩
    · cases hsome
  · exact ⟨_, _, rfl⟩

/-- A successful loop keeps the invariant. -/
theorem RegistryInv.foldlM_ok (hid : env.KeepsRegistryId) {cs : List CredInfoProver}
    {acc' : Acc} {w' : World} (hinv : RegistryInv env parser w₀ p acc w)
    (h : cs.foldlM (buildRevStatesStep env parser) acc w = .ok acc' w') :
    RegistryInv env parser w₀ (p ++ cs) acc' w' :=
  foldlM_ok_induction (RegistryInv env parser w₀) (fun _ _ _ _ _ _ _ hinv h => hinv.step hid h)
    hinv h

/-- The loop succeeds when the refresh of every registry's first credential
    succeeds from the cache of `w₀`. -/
theorem RegistryInv.foldlM_isOk (hid : env.KeepsRegistryId) : ∀ {cs : List CredInfoProver}
    {p : List CredInfoProver} {acc : Acc} {w : World}, RegistryInv env parser w₀ p acc w →
    (∀ R c, firstOfRegistry R (p ++ cs) = some c → (firstOutcome env parser w₀.cache c).isSome) →
    ∃ acc' w', cs.foldlM (buildRevStatesStep env parser) acc w = .ok acc' w'
  | [], p, acc, w, _, _ => ⟨acc, w, rfl⟩
  | c :: cs, p, acc, w, hinv, hout => by
    have hout' : ∀ R c', firstOfRegistry R (p ++ [c] ++ cs) = some c' →
        (firstOutcome env parser w₀.cache c').isSome := by simpa using hout
    obtain ⟨acc₁, w₁, h1⟩ := hinv.step_isOk c fun R hR hnew =>
      hout' R c (firstOfRegistry_append_of_some (firstOfRegistry_append_singleton hnew hR))
    obtain ⟨acc', w', h2⟩ := RegistryInv.foldlM_isOk hid (hinv.step hid h1) hout'
    exact ⟨acc', w', by rw [List.foldlM_cons, bind_apply_eq_ok]; exact ⟨acc₁, w₁, h1, h2⟩⟩

/-- Whether the loop succeeds or fails, the world it leaves satisfies the
    world invariant for the credentials it visited. -/
theorem RegistryInv.foldlM_world (hid : env.KeepsRegistryId) (cs : List CredInfoProver)
    (hinv : RegistryInv env parser w₀ p acc w) : ∃ q, q <+: cs ∧
      FrozenInv env w₀ (p ++ q) (stateOf (cs.foldlM (buildRevStatesStep env parser) acc w)) :=
  stateOf_foldlM_prefix (RegistryInv env parser w₀) (FrozenInv env w₀)
    (fun _ _ _ _ _ _ hinv h => hinv.step hid h)
    (fun _ _ c _ hinv hfr => hfr.step hid hinv.toMemoInv c) cs p acc w hinv hinv.frozen

end Output

/-! ## One invocation -/

section Invocation

variable {env : Env} {parser : JsonParser} {l : List CredInfoProver} {w : World}

/-- Whether it succeeds or fails, an invocation leaves the world invariant
    for the credentials it visited. -/
theorem buildRevStatesJson_world (hid : env.KeepsRegistryId) (parser : JsonParser)
    (l : List CredInfoProver) (w : World) : ∃ q, q <+: l ∧ FrozenInv env w q (stateOf (buildRevStatesJson env parser l w)) := by
  obtain ⟨q, hq, hfr⟩ : ∃ q, q <+: l ∧ FrozenInv env w ([] ++ q)
      (stateOf (l.foldlM (buildRevStatesStep env parser) ⟨[], [], []⟩ w)) :=
    RegistryInv.foldlM_world hid l (registryInv_nil env parser w)
  rw [stateOf_buildRevStatesJson]
  exact ⟨q, hq, by simpa using hfr⟩

theorem buildRevStatesJson_ok_registryInv (hid : env.KeepsRegistryId) {s : Json}
    {l' : List CredInfoProver} {w' : World}
    (h : buildRevStatesJson env parser l w = .ok (s, l') w') :
    ∃ acc, RegistryInv env parser w l acc w' ∧ s = .object acc.rtn ∧ l' = acc.done := by
  obtain ⟨acc, h1, rfl, rfl⟩ := buildRevStatesJson_eq_ok.mp h
  exact ⟨acc, by simpa using RegistryInv.foldlM_ok hid (registryInv_nil env parser w) h1, rfl, rfl⟩

/-- An invocation succeeds exactly when the refresh of every registry's first
    credential succeeds, from the cache the invocation starts with. -/
theorem buildRevStatesJson_isOk_iff (hid : env.KeepsRegistryId) :
    (∃ s l' w', buildRevStatesJson env parser l w = .ok (s, l') w') ↔
      ∀ R c, firstOfRegistry R l = some c → (firstOutcome env parser w.cache c).isSome := by
  constructor
  · rintro ⟨s, l', w', h⟩ R c hc
    obtain ⟨acc, hinv, -⟩ := buildRevStatesJson_ok_registryInv hid h
    obtain ⟨ts, v, hout, -⟩ := hinv.outcomes R c hc
    simp [hout]
  · intro hout
    have hout' : ∀ R c, firstOfRegistry R ([] ++ l) = some c →
        (firstOutcome env parser w.cache c).isSome := by simpa using hout
    obtain ⟨acc, w', h⟩ := RegistryInv.foldlM_isOk hid (registryInv_nil env parser w) hout'
    exact ⟨_, _, _, buildRevStatesJson_eq_ok.mpr ⟨acc, h, rfl, rfl⟩⟩

/-- A cached state inside the window: the refresh makes no call and yields
    the cached value under the cached timestamp. -/
theorem refresh_of_reuse {cache : String → String → RevRegCache} {c : CredInfoProver}
    {R cr t : String} {i : NonRevokedInterval} {u : Nat} {s : RevState}
    (hc : c.revocationIds = some (R, cr, t)) (hi : c.revocationInterval = some i)
    (hu : i.«to» = some u) (hs : (cache R cr).revState = some s)
    (hlo : i.«from».getD 0 ≤ s.timestamp) (hhi : s.timestamp ≤ u) :
    firstCalls env cache c = [] ∧
      firstOutcome env parser cache c = (parser.parse s.value).toOption.map fun v => (s.timestamp, v) := by
  have hr : revStateFromCache env R cr t (intervalBounds c.revocationInterval).1
      (intervalBounds c.revocationInterval).2 (cache R cr) [] = .ok (s.value, s.timestamp) [] := by
    simp only [hi, intervalBounds, hu]
    exact revStateFromCache_reuse [] hs ⟨hlo, hhi⟩
  exact ⟨by simp [firstCalls, hc, callsOf, hr], by simp only [firstOutcome, hc, hr]⟩

theorem registryEvents_countP {cache : String → String → RevRegCache} {q : List CredInfoProver}
    {R : String} (k : Call → Bool)
    (hk : ∀ c cr t, c.revocationIds = some (R, cr, t) → (firstCalls env cache c).countP k ≤ 1) :
    (registryEvents env cache q R).countP (fun e => k e.call) ≤ 1 := by
  unfold registryEvents
  split
  · next c hf =>
    obtain ⟨cr, t, hids⟩ := revocationIds_of_registry (firstOfRegistry_spec hf).2
    rw [List.countP_map]
    exact hk c cr t hids
  · simp

end Invocation

/-- The calls of one invocation, registry by registry, with a ledger that
    answers a delta query with the registry asked about. Each call is made for
    the first credential of its registry and names no other registry. Per
    registry there is at most one definition fetch, one delta fetch and one
    crypto call. When that first credential's window holds the cached state,
    there is none, the registry's cache entries are left as they were, and the
    output holds the cached value under the cached timestamp. -/
theorem buildRevStatesJson_registry_calls (env : Env) (parser : JsonParser)
    (l : List CredInfoProver) (w : World) (hid : env.KeepsRegistryId) :
    ∃ evs, (stateOf (buildRevStatesJson env parser l w)).log = w.log ++ evs ∧
      (∀ e ∈ evs, ∃ R, e.credInfo.registry = some R ∧ firstOfRegistry R l = some e.credInfo ∧
        ∀ r, e.call.revRegId = some r → r = R) ∧
      ∀ R, (evs.filter fun e => e.credInfo.registry = some R).countP (·.call.isDefFetch) ≤ 1 ∧
        (evs.filter fun e => e.credInfo.registry = some R).countP (·.call.isDeltaFetch) ≤ 1 ∧
        (evs.filter fun e => e.credInfo.registry = some R).countP (·.call.isCrypto) ≤ 1 ∧
        ∀ c cr i u s, firstOfRegistry R l = some c → c.credRevId = some cr →
          c.revocationInterval = some i → i.«to» = some u → (w.cache R cr).revState = some s →
          i.«from».getD 0 ≤ s.timestamp → s.timestamp ≤ u →
          (evs.filter fun e => e.credInfo.registry = some R) = [] ∧
          (∀ cr', (stateOf (buildRevStatesJson env parser l w)).cache R cr' = w.cache R cr') ∧
          ∀ out l' w', buildRevStatesJson env parser l w = .ok (out, l') w' →
            ∃ v, parser.parse s.value = .ok v ∧
              out.get R = some (.object [(toString s.timestamp, v)]) := by
  obtain ⟨q, hq, ⟨evs, hlog, htag, hfilter⟩, hcache⟩ := buildRevStatesJson_world hid parser l w
  refine ⟨evs, hlog, fun e he => ?_, fun R => ?_⟩
  · obtain ⟨R, hR⟩ := Option.isSome_iff_exists.mp (htag e he)
    have hmem : e ∈ registryEvents env w.cache q R := by
      rw [← hfilter R]
      exact List.mem_filter.mpr ⟨he, by simp [hR]⟩
    obtain ⟨c, call, hf, hcall, rfl⟩ := mem_registryEvents hmem
    obtain ⟨cr, t, hids⟩ := revocationIds_of_registry (firstOfRegistry_spec hf).2
    exact ⟨R, hR, firstOfRegistry_of_prefix_eq_some hq hf, (firstCalls_refresh hids).names hid _ hcall⟩
  rw [hfilter R]
  refine ⟨registryEvents_countP _ fun c cr t hids => (firstCalls_refresh hids).defFetches,
    registryEvents_countP _ fun c cr t hids => (firstCalls_refresh hids).deltaFetches,
    registryEvents_countP _ fun c cr t hids => (firstCalls_refresh hids).cryptoCalls,
    fun c cr i u s hc hcr hi hu hs hlo hhi => ?_⟩
  obtain ⟨cr₀, t, hids⟩ := revocationIds_of_registry (firstOfRegistry_spec hc).2
  obtain rfl : cr₀ = cr := Option.some.inj ((revocationIds_eq_some_iff.mp hids).2.1.symm.trans hcr)
  have hreuse : firstCalls env w.cache c = [] ∧ firstOutcome env parser w.cache c = _ :=
    refresh_of_reuse hids hi hu hs hlo hhi
  have hnone : registryEvents env w.cache q R = [] := by
    unfold registryEvents
    split
    · next c' hf =>
      obtain rfl : c' = c := Option.some.inj ((firstOfRegistry_of_prefix_eq_some hq hf).symm.trans hc)
      rw [hreuse.1]
      rfl
    · rfl
  refine ⟨hnone, fun cr' => by rw [hcache, hnone]; rfl, fun out l' w' hok => ?_⟩
  obtain ⟨acc, hinv, rfl, -⟩ := buildRevStatesJson_ok_registryInv hid hok
  obtain ⟨ts, v, hout, hrtn, -⟩ := hinv.outcomes R c hc
  rw [hreuse.2] at hout
  rcases hp : parser.parse s.value with err | v' <;>
    simp only [hp, Except.toOption, Option.map_none', Option.map_some', reduceCtorEq,
      Option.some.injEq, Prod.mk.injEq] at hout
  obtain ⟨rfl, rfl⟩ := hout
  exact ⟨v', rfl, hrtn⟩

theorem boundDatingLedger_keepsRegistryId : boundDatingLedger.KeepsRegistryId := by
  rintro r f t r' d ts ⟨⟩
  rfl

/-- A wallet holding, under `("R", "1")`, a state dated 7: inside the window
    of `looseBoundCred`. -/
def seededWorld : World := ⟨setCache World.empty.cache "R" "1" ⟨some ⟨7, "state"⟩⟩, []⟩

theorem looseFirst_registry_calls :
    boundDatingLedger.KeepsRegistryId ∧
      ∃ out l' w', buildRevStatesJson boundDatingLedger stateParser
          [looseBoundCred, tightBoundCred] seededWorld = .ok (out, l') w' ∧
        ∃ evs, w'.log = seededWorld.log ++ evs ∧
          (evs.filter fun e => e.credInfo.registry = some "R") = [] ∧
          (∀ cr', w'.cache "R" cr' = seededWorld.cache "R" cr') ∧
          ∃ v, stateParser.parse "state" = .ok v ∧
            out.get "R" = some (.object [(toString 7, v)]) :=
  ⟨boundDatingLedger_keepsRegistryId, _, _, _, rfl,
    let ⟨evs, hlog, _, hR⟩ := buildRevStatesJson_registry_calls boundDatingLedger stateParser
      [looseBoundCred, tightBoundCred] seededWorld boundDatingLedger_keepsRegistryId
    let ⟨hnone, hframe, hout⟩ := (hR "R").2.2.2 looseBoundCred "1" ⟨none, some 10⟩ 10
      ⟨7, "state"⟩ rfl rfl rfl rfl rfl (by decide) (by decide)
    ⟨evs, hlog, hnone, hframe, hout _ _ _ rfl⟩⟩

/-! ## Order of the credentials -/

section Order

variable {env : Env} {parser : JsonParser}

theorem firstOutcome_congr {cache : String → String → RevRegCache} {c c' : CredInfoProver}
    (hids : c.revocationIds = c'.revocationIds) (hi : c.revocationInterval = c'.revocationInterval) :
    firstOutcome env parser cache c = firstOutcome env parser cache c' := by
  unfold firstOutcome
  rw [hids, hi]

theorem revocationIds_eq_of_registry_eq {c c' : CredInfoProver} {R : String}
    (hR : c.registry = some R) (hR' : c'.registry = some R) (hcr : c.credRevId = c'.credRevId)
    (ht : c.tailsFile = c'.tailsFile) : c.revocationIds = c'.revocationIds := by
  unfold CredInfoProver.revocationIds
  rw [revRegId_eq_of_registry hR, revRegId_eq_of_registry hR', hcr, ht]

end Order

/-- Reordering the credentials changes nothing, provided the ledger keeps
    registry ids and the credentials of each registry agree on the revocation
    id, the tails file and the interval. Both orders succeed or fail together.
    On success they give the same states up to the order of the keys, and the
    same stamp per registry. -/
theorem buildRevStatesJson_perm_of_agreeing (env : Env) (parser : JsonParser)
    (l₁ l₂ : List CredInfoProver) (hperm : l₁.Perm l₂) (hnone : ∀ c ∈ l₁, c.timestamp = none)
    (hid : env.KeepsRegistryId)
    (hagree : ∀ c ∈ l₁, ∀ c' ∈ l₁, c.registry.isSome → c.registry = c'.registry →
      c.credRevId = c'.credRevId ∧ c.tailsFile = c'.tailsFile ∧
        c.revocationInterval = c'.revocationInterval)
    (w : World) :
    ((∃ s l' w', buildRevStatesJson env parser l₁ w = .ok (s, l') w') ↔
      ∃ s l' w', buildRevStatesJson env parser l₂ w = .ok (s, l') w') ∧
    ∀ s₁ l₁' w₁ s₂ l₂' w₂, buildRevStatesJson env parser l₁ w = .ok (s₁, l₁') w₁ →
      buildRevStatesJson env parser l₂ w = .ok (s₂, l₂') w₂ →
      ∃ (e₁ e₂ : List (String × Json)) (stampOf : String → Nat),
        s₁ = .object e₁ ∧ s₂ = .object e₂ ∧ e₁.Perm e₂ ∧
        l₁' = l₁.map (fun c => { c with timestamp := c.registry.map stampOf }) ∧
        l₂' = l₂.map (fun c => { c with timestamp := c.registry.map stampOf }) := by
  have hmem : ∀ c, c ∈ l₁ ↔ c ∈ l₂ := fun c => hperm.mem_iff
  have hfirst : ∀ R c₁ c₂, firstOfRegistry R l₁ = some c₁ → firstOfRegistry R l₂ = some c₂ →
      firstOutcome env parser w.cache c₁ = firstOutcome env parser w.cache c₂ := by
    intro R c₁ c₂ h₁ h₂
    obtain ⟨hc₁, hR₁⟩ := firstOfRegistry_spec h₁
    obtain ⟨hc₂, hR₂⟩ := firstOfRegistry_spec h₂
    obtain ⟨hcr, ht, hi⟩ :=
      hagree c₁ hc₁ c₂ ((hmem c₂).mpr hc₂) (by simp [hR₁]) (hR₁.trans hR₂.symm)
    exact firstOutcome_congr (revocationIds_eq_of_registry_eq hR₁ hR₂ hcr ht) hi
  have hsome : ∀ R, (firstOfRegistry R l₁).isSome ↔ (firstOfRegistry R l₂).isSome := fun R => by
    simp [firstOfRegistry, List.find?_isSome, hmem]
  refine ⟨?_, fun s₁ l₁' w₁ s₂ l₂' w₂ h₁ h₂ => ?_⟩
  · rw [buildRevStatesJson_isOk_iff hid, buildRevStatesJson_isOk_iff hid]
    constructor
    · intro h R c₂ h₂
      obtain ⟨c₁, h₁⟩ := Option.isSome_iff_exists.mp ((hsome R).mpr (by simp [h₂]))
      rw [← hfirst R c₁ c₂ h₁ h₂]
      exact h R c₁ h₁
    · intro h R c₁ h₁
      obtain ⟨c₂, h₂⟩ := Option.isSome_iff_exists.mp ((hsome R).mp (by simp [h₁]))
      rw [hfirst R c₁ c₂ h₁ h₂]
      exact h R c₂ h₂
  obtain ⟨acc₁, f₁, rfl, rfl⟩ := buildRevStatesJson_eq_ok.mp h₁
  obtain ⟨acc₂, f₂, rfl, rfl⟩ := buildRevStatesJson_eq_ok.mp h₂
  have hnone₂ : ∀ c ∈ l₂, c.timestamp = none := fun c hc => hnone c ((hmem c).mpr hc)
  have hr₁ : RegistryInv env parser w l₁ acc₁ w₁ := by
    simpa using RegistryInv.foldlM_ok hid (registryInv_nil env parser w) f₁
  have hr₂ : RegistryInv env parser w l₂ acc₂ w₂ := by
    simpa using RegistryInv.foldlM_ok hid (registryInv_nil env parser w) f₂
  have hs₁ : StampInv env l₁ acc₁ := by simpa using StampInv.foldlM hnone (stampInv_nil env) f₁
  have hs₂ : StampInv env l₂ acc₂ := by simpa using StampInv.foldlM hnone₂ (stampInv_nil env) f₂
  have hsame : ∀ R, (∃ c ∈ l₁, c.registry = some R) →
      acc₁.rtn.lookup R = acc₂.rtn.lookup R ∧ acc₁.stampOf R = acc₂.stampOf R := by
    rintro R ⟨c, hc, hR⟩
    obtain ⟨c₁, h₁⟩ := exists_firstOfRegistry ⟨c, hc, hR⟩
    obtain ⟨c₂, h₂⟩ := Option.isSome_iff_exists.mp ((hsome R).mp (by simp [h₁]))
    obtain ⟨ts₁, v₁, o₁, k₁, t₁⟩ := hr₁.outcomes R c₁ h₁
    obtain ⟨ts₂, v₂, o₂, k₂, t₂⟩ := hr₂.outcomes R c₂ h₂
    rw [hfirst R c₁ c₂ h₁ h₂, o₂, Option.some.injEq, Prod.mk.injEq] at o₁
    obtain ⟨rfl, rfl⟩ := o₁
    exact ⟨k₁.trans k₂.symm, by simp [Acc.stampOf, t₁, t₂]⟩
  refine ⟨acc₁.rtn, acc₂.rtn, acc₁.stampOf, rfl, rfl,
    perm_of_lookup_eq hr₁.nodup hr₂.nodup fun R => ?_, hs₁.done_eq_map hnone, ?_⟩
  · by_cases hR : ∃ c ∈ l₁, c.registry = some R
    · exact (hsame R hR).1
    · have n₁ : ¬ (acc₁.rtn.lookup R).isSome := by rw [hr₁.keys]; exact hR
      have n₂ : ¬ (acc₂.rtn.lookup R).isSome := by rw [hr₂.keys]; simpa [hmem] using hR
      rw [Option.not_isSome_iff_eq_none.mp n₁, Option.not_isSome_iff_eq_none.mp n₂]
  · rw [hs₂.done_eq_map hnone₂]
    refine List.map_congr_left fun c hc => ?_
    rcases hR : c.registry with _ | R
    · rfl
    · simp only [Option.map_some', (hsame R ⟨c, (hmem c).mpr hc, hR⟩).2]

/-- A third credential of registry `R`, with the first one's window. -/
def looseBoundTwin : CredInfoProver :=
  { looseBoundCred with requestedAttr := "a3", referent := "ref3" }

theorem twins_reordered :
    ((∃ s l' w', buildRevStatesJson boundDatingLedger stateParser [looseBoundCred, looseBoundTwin]
        World.empty = .ok (s, l') w') ↔
      ∃ s l' w', buildRevStatesJson boundDatingLedger stateParser [looseBoundTwin, looseBoundCred]
        World.empty = .ok (s, l') w') :=
  (buildRevStatesJson_perm_of_agreeing boundDatingLedger stateParser _ _ (List.Perm.swap _ _ [])
    (by decide) boundDatingLedger_keepsRegistryId (by decide) World.empty).1

/-- Two credentials of one registry with different windows: the state and the
    stamps depend on which comes first. -/
theorem reordered_registry_changes_states :
    boundDatingLedger.KeepsRegistryId ∧
      (∃ w', buildRevStatesJson boundDatingLedger stateParser [looseBoundCred, tightBoundCred]
          World.empty = .ok (.object [("R", .object [("10", .object [])])],
            [{ looseBoundCred with timestamp := some 10 },
              { tightBoundCred with timestamp := some 10 }]) w') ∧
      ∃ w', buildRevStatesJson boundDatingLedger stateParser [tightBoundCred, looseBoundCred]
          World.empty = .ok (.object [("R", .object [("5", .object [])])],
            [{ tightBoundCred with timestamp := some 5 },
              { looseBoundCred with timestamp := some 5 }]) w' :=
  ⟨boundDatingLedger_keepsRegistryId, ⟨_, rfl⟩, ⟨_, rfl⟩⟩

end VcxProver

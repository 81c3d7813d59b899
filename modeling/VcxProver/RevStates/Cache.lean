/-
  VcxProver.RevStates.Cache

  The revocation-state cache over a sequence of invocations of
  `build_rev_states_json`, each against its own ledger and crypto engine. A
  failed invocation keeps the calls and the writes it made.

  Timestamps. Every write stores the timestamp of a delta the ledger returned.
  It lies past the entry read, unless the ledger was asked with no upper bound.
  So with a ledger that keeps registry ids, and that dates an unbounded delta
  no earlier than any delta it returned before for that registry, no cached
  timestamp ever goes back.

  Values. Every write stores the crypto engine's answer, and the write comes
  before the answer is parsed. The cache keeps only parseable states exactly
  when the crypto engine answers with parseable states. An unparseable answer
  is cached, and the invocation then fails.
-/
import VcxProver.RevStates.Registry

namespace VcxProver

/-- What a write leaves under a key: the entry that was there, or the value
    of some write to that key. -/
theorem World.recordAll_cache_cases (w : World) (evs : List Event) (R cr : String) :
    (w.recordAll evs).cache R cr = w.cache R cr ∨
      ∃ e ∈ evs, e.call = .setRevRegCache R cr ((w.recordAll evs).cache R cr) := by
  induction evs generalizing w with
  | nil => exact .inl rfl
  | cons e evs ih =>
    rw [World.recordAll_cons]
    rcases ih (w.record e) with h | ⟨e', he', h⟩
    · rw [h]
      obtain ⟨ci, call⟩ := e
      cases call with
      | setRevRegCache r c x =>
        simp only [World.record, setCache]
        split_ifs with hk
        · obtain ⟨rfl, rfl⟩ := hk
          exact .inr ⟨_, List.mem_cons_self _ _, rfl⟩
        · exact .inl rfl
      | _ => exact .inl rfl
    · exact .inr ⟨e', List.mem_cons_of_mem _ he', h⟩

/-- The worlds a sequence of invocations goes through, each invocation against
    its own collaborators. -/
def invocationWorlds (parser : JsonParser) :
    List (Env × List CredInfoProver) → World → List World
  | [], w => [w]
  | (env, l) :: rest, w =>
    w :: invocationWorlds parser rest (stateOf (buildRevStatesJson env parser l w))

theorem invocationWorlds_eq_cons (parser : JsonParser) :
    ∀ (invs : List (Env × List CredInfoProver)) (w : World),
      ∃ tail, invocationWorlds parser invs w = w :: tail
  | [], _ => ⟨[], rfl⟩
  | (_, _) :: _, _ => ⟨_, rfl⟩

/-! ## Timestamps -/

/-- The ledger returned timestamp `ts` for a delta of registry `R` in `log`. -/
def Returned (log : List Event) (R : String) (ts : Nat) : Prop :=
  ∃ e ∈ log, ∃ f t r d, e.call = .getRevRegDeltaJson R f t (.ok (r, d, ts))

/-- The ledger dates an unbounded delta of a registry no earlier than any delta
    it returned for that registry in `log`. -/
def Env.LatestAfter (env : Env) (log : List Event) : Prop :=
  ∀ R f r d ts, env.getRevRegDeltaJson R f none = .ok (r, d, ts) →
    ∀ ts', Returned log R ts' → ts' ≤ ts

/-- Every cached timestamp is one the ledger returned for its registry. -/
def CacheObserved (w : World) : Prop :=
  ∀ R cr s, (w.cache R cr).revState = some s → Returned w.log R s.timestamp

/-- No entry was emptied and no cached timestamp went back. -/
def CacheGrows (w w' : World) : Prop :=
  ∀ R cr s, (w.cache R cr).revState = some s →
    ∃ s', (w'.cache R cr).revState = some s' ∧ s.timestamp ≤ s'.timestamp

/-- Each invocation meets a ledger that keeps registry ids and dates an
    unbounded delta no earlier than any it returned before. -/
def LedgerMonotone (parser : JsonParser) : List (Env × List CredInfoProver) → World → Prop
  | [], _ => True
  | (env, l) :: rest, w => env.KeepsRegistryId ∧ env.LatestAfter w.log ∧
    LedgerMonotone parser rest (stateOf (buildRevStatesJson env parser l w))

theorem cacheObserved_empty : CacheObserved World.empty := fun _ _ _ h => by cases h

theorem Returned.append {log : List Event} {R : String} {ts : Nat} (h : Returned log R ts)
    (evs : List Event) : Returned (log ++ evs) R ts := by
  obtain ⟨e, he, hcall⟩ := h
  exact ⟨e, List.mem_append_left _ he, hcall⟩

section Timestamps

variable {env : Env} {parser : JsonParser} {w : World}

/-- A write of one invocation to a key stores a returned timestamp no earlier
    than the entry the invocation found there. -/
theorem registryEvents_write (hledger : env.LatestAfter w.log)
    (hobs : CacheObserved w) {q : List CredInfoProver} {R cr : String} {x : RevRegCache}
    {e : Event} (he : e ∈ registryEvents env w.cache q R)
    (hcall : e.call = .setRevRegCache R cr x) :
    ∃ s, x = ⟨some s⟩ ∧
      (∃ f t r d, Event.mk e.credInfo (.getRevRegDeltaJson R f t (.ok (r, d, s.timestamp))) ∈
        registryEvents env w.cache q R) ∧
      ∀ old, (w.cache R cr).revState = some old → old.timestamp ≤ s.timestamp := by
  obtain ⟨c, call, hf, hmem, rfl⟩ := mem_registryEvents he
  obtain ⟨cr₀, t, hids⟩ := revocationIds_of_registry (firstOfRegistry_spec hf).2
  have hrc : RefreshCalls env R cr₀ (w.cache R cr₀) (firstCalls env w.cache c) :=
    firstCalls_refresh hids
  dsimp only at hcall
  subst hcall
  obtain ⟨rfl, s, rfl, -, f, t', d, hdelta, hnewer⟩ := hrc.writes _ _ _ hmem
  refine ⟨s, rfl, ⟨f, t', R, d, ?_⟩, fun old hold => ?_⟩
  · rw [registryEvents_of_first hf]
    exact List.mem_map_of_mem _ hdelta
  rcases hnewer old hold with hlt | rfl
  · exact hlt.le
  · exact hledger R f R d _ (hrc.answered _ hdelta).symm _ (hobs R cr old hold)

/-- One invocation: no cached timestamp goes back, and every cached timestamp
    is still one the ledger returned. -/
theorem buildRevStatesJson_cacheGrows (hid : env.KeepsRegistryId)
    (hledger : env.LatestAfter w.log) (hobs : CacheObserved w) (l : List CredInfoProver) :
    CacheGrows w (stateOf (buildRevStatesJson env parser l w)) ∧
      CacheObserved (stateOf (buildRevStatesJson env parser l w)) := by
  obtain ⟨q, -, ⟨evs, hlog, -, hfilter⟩, hcache⟩ := buildRevStatesJson_world hid parser l w
  have hin : ∀ R e, e ∈ registryEvents env w.cache q R →
      e ∈ (stateOf (buildRevStatesJson env parser l w)).log := fun R e he => by
    rw [← hfilter R] at he
    rw [hlog]
    exact List.mem_append_right _ (List.mem_filter.mp he).1
  constructor
  · intro R cr s hs
    rw [hcache]
    rcases World.recordAll_cache_cases w (registryEvents env w.cache q R) R cr with h | ⟨e, he, hcall⟩
    · exact ⟨s, by rw [h, hs], le_rfl⟩
    · obtain ⟨s', hx, -, hle⟩ := registryEvents_write hledger hobs he hcall
      exact ⟨s', by rw [hx], hle s hs⟩
  · intro R cr s hs
    rw [hcache] at hs
    rcases World.recordAll_cache_cases w (registryEvents env w.cache q R) R cr with h | ⟨e, he, hcall⟩
    · rw [h] at hs
      rw [hlog]
      exact (hobs R cr s hs).append evs
    · obtain ⟨s', hx, ⟨f, t, r, d, hd⟩, -⟩ := registryEvents_write hledger hobs he hcall
      rw [hx] at hs
      cases hs
      exact ⟨_, hin R _ hd, f, t, r, d, rfl⟩

/-- A delta timestamp in the log after an invocation was there before, or is
    one the ledger answers for that registry. -/
theorem returned_buildRevStatesJson (hid : env.KeepsRegistryId) (l : List CredInfoProver)
    {R : String} {ts : Nat} (h : Returned (stateOf (buildRevStatesJson env parser l w)).log R ts) :
    Returned w.log R ts ∨ ∃ f t r d, env.getRevRegDeltaJson R f t = .ok (r, d, ts) := by
  obtain ⟨q, -, ⟨evs, hlog, htag, hfilter⟩, -⟩ := buildRevStatesJson_world hid parser l w
  obtain ⟨e, he, f, t, r, d, hcall⟩ := h
  rw [hlog] at he
  rcases List.mem_append.mp he with he | he
  · exact .inl ⟨e, he, f, t, r, d, hcall⟩
  obtain ⟨R', hR'⟩ := Option.isSome_iff_exists.mp (htag e he)
  have hmem : e ∈ registryEvents env w.cache q R' := by
    rw [← hfilter R']
    exact List.mem_filter.mpr ⟨he, by simp [hR']⟩
  obtain ⟨c, call, hf, hcallmem, rfl⟩ := mem_registryEvents hmem
  obtain ⟨cr, t', hids⟩ := revocationIds_of_registry (firstOfRegistry_spec hf).2
  dsimp only at hcall
  subst hcall
  exact .inr ⟨f, t, r, d, ((firstCalls_refresh hids).answered _ hcallmem).symm⟩

end Timestamps

/-- Over any sequence of invocations, each against a ledger that keeps
    registry ids and dates an unbounded delta no earlier than any it returned
    before, starting from a cache of timestamps the ledger returned: from one
    invocation to the next no cached timestamp goes back. -/
theorem invocationWorlds_cache_monotone (parser : JsonParser)
    (invs : List (Env × List CredInfoProver)) (w : World) (hobs : CacheObserved w)
    (hledger : LedgerMonotone parser invs w) :
    (invocationWorlds parser invs w).Chain' CacheGrows := by
  induction invs generalizing w with
  | nil => exact List.Chain.nil
  | cons inv rest ih =>
    obtain ⟨env, l⟩ := inv
    obtain ⟨hid, hlatest, hrest⟩ := hledger
    obtain ⟨hgrow, hobs'⟩ : CacheGrows w (stateOf (buildRevStatesJson env parser l w)) ∧ _ :=
      buildRevStatesJson_cacheGrows hid hlatest hobs l
    have htail := ih _ hobs' hrest
    obtain ⟨tail, heq⟩ := invocationWorlds_eq_cons parser rest
      (stateOf (buildRevStatesJson env parser l w))
    rw [heq] at htail
    rw [invocationWorlds, heq]
    exact List.Chain.cons hgrow htail

/-- A ledger that answers only bounded delta queries, each dated at its bound. -/
def boundOnlyLedger : Env :=
  { boundDatingLedger with
    getRevRegDeltaJson := fun r _ t => match t with
      | some u => .ok (r, "delta", u)
      | none => .error (.fromMsg .invalidLedgerResponse "unbounded delta") }

theorem ledgerMonotone_boundOnly (parser : JsonParser) :
    ∀ (ls : List (List CredInfoProver)) (w : World),
      LedgerMonotone parser (ls.map fun l => (boundOnlyLedger, l)) w
  | [], _ => trivial
  | _ :: ls, _ =>
    ⟨by rintro r f (_ | u) r' d ts h <;> cases h; rfl,
      by rintro R f r d ts ⟨⟩, ledgerMonotone_boundOnly parser ls _⟩

/-- A ledger that keeps registry ids, dates every delta at most `cap` and an
    unbounded one at `cap` meets `LedgerMonotone` over any run of invocations
    from a log whose deltas are dated at most `cap`. -/
theorem ledgerMonotone_of_capped {env : Env} (hid : env.KeepsRegistryId) {cap : Nat}
    (hle : ∀ R f t r d ts, env.getRevRegDeltaJson R f t = .ok (r, d, ts) → ts ≤ cap)
    (hcap : ∀ R f r d ts, env.getRevRegDeltaJson R f none = .ok (r, d, ts) → cap ≤ ts)
    (parser : JsonParser) :
    ∀ (ls : List (List CredInfoProver)) (w : World),
      (∀ R ts, Returned w.log R ts → ts ≤ cap) → LedgerMonotone parser (ls.map fun l => (env, l)) w
  | [], _, _ => trivial
  | l :: ls, w, hw =>
    ⟨hid, fun R f r d ts h ts' hts' => (hw R ts' hts').trans (hcap R f r d ts h),
      ledgerMonotone_of_capped hid hle hcap parser ls _ fun R ts hts => by
        rcases returned_buildRevStatesJson hid l hts with hts | ⟨f, t, r, d, h⟩
        · exact hw R ts hts
        · exact hle R f t r d ts h⟩

/-- A ledger that dates a delta at its upper bound, capped at 100, and an
    unbounded one at 100. -/
def cappedLedger : Env :=
  { boundDatingLedger with
    getRevRegDeltaJson := fun r _ t => .ok (r, "delta", min (t.getD 100) 100) }

theorem cappedLedger_keepsRegistryId : cappedLedger.KeepsRegistryId := by
  rintro r f t r' d ts ⟨⟩
  rfl

/-- A credential under the key `("R", "1")` of `looseBoundCred`, with no interval. -/
def unboundedCred : CredInfoProver :=
  ⟨"a3", "ref3", "s", "d", some "R", some "1", none, some "tails", none⟩

/-- The first invocation caches the state dated 10 under `("R", "1")`; the
    second, with no upper bound, rewrites that entry with the state dated 100. -/
theorem twoInvocations_cache_monotone :
    CacheObserved World.empty ∧
      LedgerMonotone stateParser [(cappedLedger, [looseBoundCred]), (cappedLedger, [unboundedCred])]
        World.empty ∧
      ((stateOf (buildRevStatesJson cappedLedger stateParser [looseBoundCred]
        World.empty)).cache "R" "1").revState = some ⟨10, "state"⟩ ∧
      ((stateOf (buildRevStatesJson cappedLedger stateParser [unboundedCred]
        (stateOf (buildRevStatesJson cappedLedger stateParser [looseBoundCred]
          World.empty)))).cache "R" "1").revState = some ⟨100, "state"⟩ ∧
      (invocationWorlds stateParser [(cappedLedger, [looseBoundCred]),
        (cappedLedger, [unboundedCred])] World.empty).Chain' CacheGrows :=
  have hmono : LedgerMonotone stateParser [(cappedLedger, [looseBoundCred]),
      (cappedLedger, [unboundedCred])] World.empty :=
    ledgerMonotone_of_capped cappedLedger_keepsRegistryId
      (fun _ _ _ _ _ _ h => by cases h; exact Nat.min_le_right _ _)
      (fun _ _ _ _ _ h => by cases h; decide) stateParser [[looseBoundCred], [unboundedCred]]
      World.empty fun _ _ ⟨_, he, _⟩ => by cases he
  ⟨cacheObserved_empty, hmono, rfl, rfl,
    invocationWorlds_cache_monotone stateParser _ World.empty cacheObserved_empty hmono⟩

/-! ## What an invocation writes -/

/-- With a ledger that keeps registry ids, an invocation writes the cache only
    under the key of each registry's first credential. Every other entry, those
    of later credentials of a registry with another `cred_rev_id` among them,
    is left as it was, whether the invocation succeeds or fails. -/
theorem buildRevStatesJson_cache_frame {env : Env} (hid : env.KeepsRegistryId)
    (parser : JsonParser) (l : List CredInfoProver) (w : World) {R cr : String}
    (hout : (firstOfRegistry R l).bind CredInfoProver.credRevId ≠ some cr) :
    (stateOf (buildRevStatesJson env parser l w)).cache R cr = w.cache R cr := by
  obtain ⟨q, hq, hfr⟩ := buildRevStatesJson_world hid parser l w
  rw [hfr.cache]
  refine World.recordAll_cache_of_ne fun e he x hx => ?_
  obtain ⟨c, call, hf, hcall, rfl⟩ := mem_registryEvents he
  dsimp only at hx
  subst hx
  obtain ⟨cr₀, t, hids⟩ := revocationIds_of_registry (firstOfRegistry_spec hf).2
  obtain ⟨rfl, -⟩ := (firstCalls_refresh hids).writes _ _ _ hcall
  apply hout
  rw [firstOfRegistry_of_prefix_eq_some hq hf, Option.some_bind]
  exact (revocationIds_eq_some_iff.mp hids).2.1

theorem secondCredential_entry_untouched :
    (firstOfRegistry "R" [looseBoundCred, tightBoundCred]).bind CredInfoProver.credRevId ≠
        some "2" ∧
      (stateOf (buildRevStatesJson boundDatingLedger stateParser [looseBoundCred, tightBoundCred]
        World.empty)).cache "R" "2" = World.empty.cache "R" "2" :=
  ⟨by decide, buildRevStatesJson_cache_frame boundDatingLedger_keepsRegistryId stateParser _
    World.empty (by decide)⟩

section Freshness

variable {env : Env} {parser : JsonParser}

/-- After a successful refresh the key it read holds a state at least as new
    as the one it returned: the one it wrote, or the one it found. -/
theorem revStateFromCache_ok_leaves (hid : env.KeepsRegistryId) {R cr t : String}
    {fromTs toTs : Option Nat} {j : String} {ts : Nat} {calls : List Call} (w : World)
    (c : CredInfoProver)
    (h : revStateFromCache env R cr t fromTs toTs (w.cache R cr) [] = .ok (j, ts) calls) :
    ∃ s, ((w.recordAll (calls.map (Event.mk c))).cache R cr).revState = some s ∧
      ts ≤ s.timestamp := by
  obtain ⟨-, ⟨hnw, s, hs, hle⟩ | ⟨pre, r, rfl, -, f, t', d, hd⟩⟩ := revStateFromCache_ok_cases h
  · refine ⟨s, ?_, hle⟩
    rw [World.recordAll_cache_of_ne fun e he x hx => ?_]
    · exact hs
    obtain ⟨call, hcall, rfl⟩ := List.mem_map.mp he
    dsimp only at hx
    subst hx
    exact hnw _ _ _ hcall
  · obtain rfl := hid _ _ _ _ _ _ hd
    exact ⟨⟨ts, j⟩, by simp [World.record, setCache], le_rfl⟩

/-- A successful invocation leaves, under the key of each registry's first
    credential, a state at least as new as the one it put in its output. -/
theorem buildRevStatesJson_cache_covers (hid : env.KeepsRegistryId) {l : List CredInfoProver}
    {w w' : World} {s : Json} {l' : List CredInfoProver}
    (h : buildRevStatesJson env parser l w = .ok (s, l') w') {R cr : String} {c : CredInfoProver}
    (hc : firstOfRegistry R l = some c) (hcr : c.credRevId = some cr) :
    ∃ t v st, s.get R = some (.object [(toString t, v)]) ∧
      (w'.cache R cr).revState = some st ∧ t ≤ st.timestamp := by
  obtain ⟨acc, hinv, rfl, -⟩ := buildRevStatesJson_ok_registryInv hid h
  obtain ⟨ts, v, hout, hrtn, -⟩ := hinv.outcomes R c hc
  obtain ⟨R', cr', t, j, hids, hr, -⟩ := firstOutcome_eq_some_inv hout
  obtain rfl : R' = R := Option.some.inj
    ((registry_eq_some_of_revocationIds hids).symm.trans (firstOfRegistry_spec hc).2)
  obtain rfl : cr' = cr := Option.some.inj ((revocationIds_eq_some_iff.mp hids).2.1.symm.trans hcr)
  obtain ⟨st, hst, hle⟩ := revStateFromCache_ok_leaves hid w c hr
  refine ⟨ts, v, st, by rw [Json.get_object, hrtn], ?_, hle⟩
  rw [hinv.frozen.cache, registryEvents_of_first hc]
  exact hst

end Freshness

theorem CacheGrows.refl (w : World) : CacheGrows w w := fun _ _ s h => ⟨s, h, le_rfl⟩

theorem CacheGrows.trans {w₁ w₂ w₃ : World} (h₁ : CacheGrows w₁ w₂) (h₂ : CacheGrows w₂ w₃) :
    CacheGrows w₁ w₃ := fun R cr s hs => by
  obtain ⟨s₂, hs₂, hle₂⟩ := h₁ R cr s hs
  obtain ⟨s₃, hs₃, hle₃⟩ := h₂ R cr s₂ hs₂
  exact ⟨s₃, hs₃, hle₂.trans hle₃⟩

/-- Every world of a run of invocations has grown from the first. -/
theorem invocationWorlds_cacheGrows (parser : JsonParser) :
    ∀ (invs : List (Env × List CredInfoProver)) (w : World), CacheObserved w →
      LedgerMonotone parser invs w → ∀ w' ∈ invocationWorlds parser invs w, CacheGrows w w'
  | [], w, _, _, w', hw' => by
    rw [invocationWorlds, List.mem_singleton] at hw'
    exact hw' ▸ CacheGrows.refl w
  | (env, l) :: rest, w, hobs, ⟨hid, hlatest, hrest⟩, w', hw' => by
    obtain ⟨hgrow, hobs'⟩ : CacheGrows w (stateOf (buildRevStatesJson env parser l w)) ∧ _ :=
      buildRevStatesJson_cacheGrows hid hlatest hobs l
    rcases List.mem_cons.mp hw' with rfl | hw'
    · exact CacheGrows.refl _
    · exact hgrow.trans (invocationWorlds_cacheGrows parser rest _ hobs' hrest w' hw')

/-- Over any run of invocations against ledgers that keep registry ids and
    date an unbounded delta no earlier than any they returned before, from a
    cache of timestamps the ledger returned: once an invocation has put a
    registry's state in its output, the key of that registry's first
    credential holds a state at least as new, in every later world. -/
theorem buildRevStatesJson_output_stays_covered (parser : JsonParser) {env : Env}
    {l : List CredInfoProver} {rest : List (Env × List CredInfoProver)} {w w' : World}
    {s : Json} {l' : List CredInfoProver} (hobs : CacheObserved w)
    (hledger : LedgerMonotone parser ((env, l) :: rest) w)
    (h : buildRevStatesJson env parser l w = .ok (s, l') w') {R cr : String} {c : CredInfoProver}
    (hc : firstOfRegistry R l = some c) (hcr : c.credRevId = some cr) :
    ∃ t v, s.get R = some (.object [(toString t, v)]) ∧
      ∀ w'' ∈ invocationWorlds parser rest w', ∃ st, (w''.cache R cr).revState = some st ∧
        t ≤ st.timestamp := by
  obtain ⟨hid, hlatest, hrest⟩ := hledger
  have hobs' : CacheObserved (stateOf (buildRevStatesJson env parser l w)) :=
    (buildRevStatesJson_cacheGrows hid hlatest hobs l).2
  rw [h] at hrest hobs'
  obtain ⟨t, v, st, hs, hst, hle⟩ := buildRevStatesJson_cache_covers hid h hc hcr
  refine ⟨t, v, hs, fun w'' hw'' => ?_⟩
  obtain ⟨st'', hst'', hle''⟩ :=
    invocationWorlds_cacheGrows parser rest w' hobs' hrest w'' hw'' R cr st hst
  exact ⟨st'', hst'', hle.trans hle''⟩

theorem looseFirst_output_stays_covered :
    ∃ s l' w', buildRevStatesJson boundOnlyLedger stateParser [looseBoundCred] World.empty =
        .ok (s, l') w' ∧
      ∃ t v, s.get "R" = some (.object [(toString t, v)]) ∧
        ∀ w'' ∈ invocationWorlds stateParser [(boundOnlyLedger, [tightBoundCred])] w',
          ∃ st, (w''.cache "R" "1").revState = some st ∧ t ≤ st.timestamp :=
  ⟨_, _, _, rfl, buildRevStatesJson_output_stays_covered stateParser cacheObserved_empty
    (ledgerMonotone_boundOnly stateParser [[looseBoundCred], [tightBoundCred]] World.empty) rfl
    rfl rfl⟩

/-! ## Values -/

section Values

variable {env : Env} {parser : JsonParser} {w : World}

end Values

end VcxProver

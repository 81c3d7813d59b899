/-
  VcxProver.RevStates.Defs

  `build_rev_states_json` (disclosed_proof.rs) and the world it acts on: the
  process-wide revocation-state cache, and the calls made to the ledger and to
  the crypto engine. The collaborators are the fields of `Env`. Every call is
  recorded in the world's log with the answer it got, tagged with the
  credential whose loop iteration made it, so that results can say which calls
  happen.

  After its one read of the cache, the branch that builds a revocation state
  never reads the cache again. It therefore runs in `CallM`, whose state is the
  list of calls made. `getRevState` tags that list with the credential and
  replays it onto the world, cache writes included.
-/
import VcxProver.Types

namespace VcxProver

/-- The ledger and crypto-engine primitives that `build_rev_states_json` calls. -/
structure Env where
  /-- `get_rev_reg_def_json(rev_reg_id) → (id, definition)` -/
  getRevRegDefJson : String → Except VcxError (String × String)
  /-- `get_rev_reg_delta_json(rev_reg_id, from, to) → (id, delta, timestamp)` -/
  getRevRegDeltaJson : String → Option Nat → Option Nat → Except VcxError (String × String × Nat)
  /-- `libindy_prover_update_revocation_state(definition, state, delta, cred_rev_id, tails)` -/
  proverUpdateRevocationState :
    String → String → String → String → String → Except VcxError String
  /-- `libindy_prover_create_revocation_state(definition, delta, cred_rev_id, tails)` -/
  proverCreateRevocationState : String → String → String → String → Except VcxError String

/-- One call to a collaborator or to the cache, with the answer it got. -/
inductive Call where
  | getRevRegDefJson (revRegId : String) (answer : Except VcxError (String × String))
  | getRevRegDeltaJson (revRegId : String) («from» «to» : Option Nat)
      (answer : Except VcxError (String × String × Nat))
  | proverUpdateRevocationState
      (revRegDefJson revStateJson revRegDeltaJson credRevId tailsFile : String)
      (answer : Except VcxError String)
  | proverCreateRevocationState (revRegDefJson revRegDeltaJson credRevId tailsFile : String)
      (answer : Except VcxError String)
  | setRevRegCache (revRegId credRevId : String) (cache : RevRegCache)

/-- A call, tagged with the credential of the loop iteration that made it. -/
structure Event where
  credInfo : CredInfoProver
  call : Call

/-- The revocation-state cache, keyed by `(rev_reg_id, cred_rev_id)`, and the
    log of the calls made so far. -/
structure World where
  /-- Modelled from the spec: the process-wide store of 4.C, keyed by
      `(rev_reg_id, cred_rev_id)`, whose code (utils::libindy::cache) is not
      under src/. An absent key reads as the default, empty entry. -/
  cache : String → String → RevRegCache
  log : List Event

/-- A fresh wallet: every key reads as the default, empty entry. -/
def World.empty : World := ⟨fun _ _ => ⟨none⟩, []⟩

/-- Modelled from the spec: the `set(key, entry)` of the 4.C store, on the
    cache function. -/
def setCache (cache : String → String → RevRegCache) (revRegId credRevId : String)
    (entry : RevRegCache) : String → String → RevRegCache :=
  fun r c => if r = revRegId ∧ c = credRevId then entry else cache r c

/-- Append an event to the log; a cache write takes effect. -/
def World.record (w : World) (e : Event) : World where
  cache := match e.call with
    | .setRevRegCache revRegId credRevId entry => setCache w.cache revRegId credRevId entry
    | _ => w.cache
  log := w.log ++ [e]

/-- Append a list of events, in order. -/
def World.recordAll (w : World) (evs : List Event) : World := evs.foldl World.record w

/-! ## The calls -/

/-- Computations that only call out: their state is the list of calls made. -/
abbrev CallM := EStateM VcxError (List Call)

/-- Computations on the world. -/
abbrev WorldM := EStateM VcxError World

/-- Make a call that gets `answer` and log it; an error answer is propagated
    by `?`. -/
def callOut {α : Type} (call : Except VcxError α → Call) (answer : Except VcxError α) :
    CallM α := fun calls =>
  match answer with
  | .ok a => .ok a (calls ++ [call answer])
  | .error e => .error e (calls ++ [call answer])

/-- `get_rev_reg_def_json`. -/
def getRevRegDefJson (env : Env) (revRegId : String) :
    CallM (String × String) :=
  callOut (.getRevRegDefJson revRegId) (env.getRevRegDefJson revRegId)

/-- `get_rev_reg_delta_json`. -/
def getRevRegDeltaJson (env : Env) (revRegId : String)
    (fromTs toTs : Option Nat) : CallM (String × String × Nat) :=
  callOut (.getRevRegDeltaJson revRegId fromTs toTs) (env.getRevRegDeltaJson revRegId fromTs toTs)

/-- `libindy_prover_update_revocation_state`. -/
def proverUpdateRevocationState (env : Env)
    (revRegDefJson revStateJson revRegDeltaJson credRevId tailsFile : String) : CallM String :=
  callOut (.proverUpdateRevocationState revRegDefJson revStateJson revRegDeltaJson credRevId tailsFile)
    (env.proverUpdateRevocationState revRegDefJson revStateJson revRegDeltaJson credRevId tailsFile)

/-- `libindy_prover_create_revocation_state`. -/
def proverCreateRevocationState (env : Env)
    (revRegDefJson revRegDeltaJson credRevId tailsFile : String) : CallM String :=
  callOut (.proverCreateRevocationState revRegDefJson revRegDeltaJson credRevId tailsFile)
    (env.proverCreateRevocationState revRegDefJson revRegDeltaJson credRevId tailsFile)

/-- Modelled from the spec: `set_rev_reg_cache`, the `set(key, entry)` of the
    4.C store. The write is logged, and takes effect when the log is replayed
    onto the world. -/
def setRevRegCache (revRegId credRevId : String) (entry : RevRegCache) : CallM Unit :=
  fun calls => .ok () (calls ++ [.setRevRegCache revRegId credRevId entry])

/-! ## Branch selection -/

/-- `match from { Some(from) if from >= cached.timestamp => Some(cached.timestamp), _ => None }`:
    the lower end of the delta an update asks the ledger for. -/
def deltaFrom (fromTs : Option Nat) (cachedTimestamp : Nat) : Option Nat :=
  match fromTs with
  | some f => if f ≥ cachedTimestamp then some cachedTimestamp else none
  | none => none

/-- The delta-update branch: the cached state lies outside the window. The
    ledger is asked for the changes since the cached timestamp when the window
    starts after it, and the write-back happens only for a strictly newer
    timestamp, under the registry id the ledger answered with. -/
def updateRevState (env : Env) (revRegId credRevId tailsFile : String)
    (cached : RevState) (fromTs : Option Nat) (toTs : Nat) : CallM (String × Nat) := do
  let (_, revRegDefJson) ← getRevRegDefJson env revRegId
  let (ledgerRevRegId, revRegDeltaJson, timestamp) ←
    getRevRegDeltaJson env revRegId (deltaFrom fromTs cached.timestamp) (some toTs)
  let revStateJson ← proverUpdateRevocationState env revRegDefJson cached.value
    revRegDeltaJson credRevId tailsFile
  if timestamp > cached.timestamp then
    setRevRegCache ledgerRevRegId credRevId ⟨some ⟨timestamp, revStateJson⟩⟩
  pure (revStateJson, timestamp)

/-- The fresh-create branch: no cached state, or no upper bound. The write is
    unconditional. -/
def createRevState (env : Env) (revRegId credRevId tailsFile : String)
    (toTs : Option Nat) : CallM (String × Nat) := do
  let (_, revRegDefJson) ← getRevRegDefJson env revRegId
  let (ledgerRevRegId, revRegDeltaJson, timestamp) ← getRevRegDeltaJson env revRegId none toTs
  let revStateJson ← proverCreateRevocationState env revRegDefJson revRegDeltaJson
    credRevId tailsFile
  setRevRegCache ledgerRevRegId credRevId ⟨some ⟨timestamp, revStateJson⟩⟩
  pure (revStateJson, timestamp)

/-- The branch selection of `build_rev_states_json` for the cache entry read:
    reuse the cached state when it lies in `[from.unwrap_or(0), to]`, update it
    when it lies outside, create a fresh one otherwise. -/
def revStateFromCache (env : Env) (revRegId credRevId tailsFile : String)
    (fromTs toTs : Option Nat) (cache : RevRegCache) : CallM (String × Nat) :=
  match cache.revState, toTs with
  | some cached, some upper =>
    if cached.timestamp ≥ fromTs.getD 0 ∧ cached.timestamp ≤ upper then
      pure (cached.value, cached.timestamp)
    else updateRevState env revRegId credRevId tailsFile cached fromTs upper
  | _, _ => createRevState env revRegId credRevId tailsFile toTs

/-! ## The loop -/

/-- Run a `CallM` computation against the world: its calls, tagged with
    `credInfo`, are appended to the log and its cache writes take effect. -/
def runCalls {α : Type} (credInfo : CredInfoProver) (m : CallM α) : WorldM α := fun w =>
  match m [] with
  | .ok a calls => .ok a (w.recordAll (calls.map (Event.mk credInfo)))
  | .error e calls => .error e (w.recordAll (calls.map (Event.mk credInfo)))

/-- Modelled from the spec: `get_rev_reg_cache`, the `get(key)` of the 4.C
    store, which reads an absent key as the default, empty entry. -/
def getRevRegCache (revRegId credRevId : String) : WorldM RevRegCache := fun w =>
  .ok (w.cache revRegId credRevId) w

/-- Read the cache entry of the credential and build its revocation state. -/
def getRevState (env : Env) (credInfo : CredInfoProver) (revRegId credRevId tailsFile : String)
    (fromTs toTs : Option Nat) : WorldM (String × Nat) := do
  let cache ← getRevRegCache revRegId credRevId
  runCalls credInfo (revStateFromCache env revRegId credRevId tailsFile fromTs toTs cache)

/-- `serde_json::from_str` of a revocation state built or cached. -/
def parseRevState (parser : JsonParser) (revStateJson : String) : WorldM Json :=
  match parser.parse revStateJson with
  | .ok v => pure v
  | .error err => throw (.fromMsg .invalidJson ("Cannot deserialize RevocationState: " ++ err))

/-- `(interval.from, interval.to)`, or `(None, None)` without an interval. -/
def intervalBounds : Option NonRevokedInterval → Option Nat × Option Nat
  | some interval => (interval.«from», interval.«to»)
  | none => (none, none)

/-- The loop's local state: the output object `rtn`, the memo `timestamps`, and
    the credentials already visited, as `iter_mut` left them. -/
structure Acc where
  rtn : List (String × Json)
  timestamps : List (String × Nat)
  done : List CredInfoProver

/-- The body of `if rtn.get(&rev_reg_id).is_none()`: the first credential of a
    registry builds its state, stamps itself and fills `rtn` and the memo. -/
def addRevState (env : Env) (parser : JsonParser) (acc : Acc) (credInfo : CredInfoProver)
    (revRegId credRevId tailsFile : String) : WorldM (CredInfoProver × Acc) := do
  let (fromTs, toTs) := intervalBounds credInfo.revocationInterval
  let (revStateJson, timestamp) ←
    getRevState env credInfo revRegId credRevId tailsFile fromTs toTs
  let revStateJson ← parseRevState parser revStateJson
  pure ({ credInfo with timestamp := some timestamp },
    { acc with rtn := mapInsert revRegId (.object [(toString timestamp, revStateJson)]) acc.rtn
               timestamps := mapInsert revRegId timestamp acc.timestamps })

/-- `if cred_info.timestamp.is_none() { cred_info.timestamp = timestamps.get(rev_reg_id) }` -/
def fillTimestamp (credInfo : CredInfoProver) (timestamps : List (String × Nat))
    (revRegId : String) : CredInfoProver :=
  if credInfo.timestamp.isNone then { credInfo with timestamp := timestamps.lookup revRegId }
  else credInfo

/-- One iteration of the loop of `build_rev_states_json`. -/
def buildRevStatesStep (env : Env) (parser : JsonParser) (acc : Acc) (credInfo : CredInfoProver) :
    WorldM Acc :=
  match credInfo.revRegId, credInfo.credRevId, credInfo.tailsFile with
  | some revRegId, some credRevId, some tailsFile => do
    let (credInfo, acc) ←
      if (acc.rtn.lookup revRegId).isNone then
        addRevState env parser acc credInfo revRegId credRevId tailsFile
      else pure (credInfo, acc)
    pure { acc with done := acc.done ++ [fillTimestamp credInfo acc.timestamps revRegId] }
  | _, _, _ => pure { acc with done := acc.done ++ [credInfo] }

/-- `build_rev_states_json`: the revocation-states object (whose `to_string`
    the Rust function returns) and the credentials as the loop stamped them. -/
def buildRevStatesJson (env : Env) (parser : JsonParser)
    (credentialsIdentifiers : List CredInfoProver) : WorldM (Json × List CredInfoProver) := do
  let acc ← credentialsIdentifiers.foldlM (buildRevStatesStep env parser) ⟨[], [], []⟩
  pure (.object acc.rtn, acc.done)

/-! ## Small lemmas -/

/-- The world an `EStateM` computation leaves, whether it failed or not. -/
def stateOf {ε σ α : Type} : EStateM.Result ε σ α → σ
  | .ok _ s => s
  | .error _ s => s

@[simp] theorem stateOf_ok {ε σ α : Type} (a : α) (s : σ) :
    stateOf (EStateM.Result.ok a s : EStateM.Result ε σ α) = s := rfl

@[simp] theorem stateOf_error {ε σ α : Type} (e : ε) (s : σ) :
    stateOf (EStateM.Result.error e s : EStateM.Result ε σ α) = s := rfl

section Bind

variable {ε σ α β : Type} {x : EStateM ε σ α} {f : α → EStateM ε σ β} {s s' : σ}

theorem bind_apply_eq_ok {b : β} :
    (x >>= f) s = .ok b s' ↔ ∃ a s₁, x s = .ok a s₁ ∧ f a s₁ = .ok b s' := by
  show EStateM.bind x f s = _ ↔ _
  unfold EStateM.bind
  cases x s <;> simp [and_assoc]

theorem bind_apply_eq_error {e : ε} :
    (x >>= f) s = .error e s' ↔ x s = .error e s' ∨ ∃ a s₁, x s = .ok a s₁ ∧ f a s₁ = .error e s' := by
  show EStateM.bind x f s = _ ↔ _
  unfold EStateM.bind
  cases x s <;> simp [and_assoc]

theorem stateOf_bind_of_stateOf (hf : ∀ a s, stateOf (f a s) = s) :
    stateOf ((x >>= f) s) = stateOf (x s) := by
  show stateOf (EStateM.bind x f s) = _
  unfold EStateM.bind
  cases x s with
  | ok a s₁ => exact hf a s₁
  | error e s₁ => rfl

end Bind

/-! ## Loops -/

section Loops

variable {ε σ α β : Type} {f : α → β → EStateM ε σ α}

/-- A property of the visited elements, the accumulator and the state that
    every successful iteration keeps holds after a successful loop. -/
theorem foldlM_ok_induction (I : List β → α → σ → Prop) {l : List β}
    (hf : ∀ b ∈ l, ∀ p a s a' s', I p a s → f a b s = .ok a' s' → I (p ++ [b]) a' s') :
    ∀ {p : List β} {a a' : α} {s s' : σ}, I p a s → l.foldlM f a s = .ok a' s' →
      I (p ++ l) a' s' := by
  induction l with
  | nil =>
    intro p a a' s s' h0 h
    cases h
    simpa using h0
  | cons b l ih =>
    intro p a a' s s' h0 h
    rw [List.foldlM_cons] at h
    obtain ⟨a₁, s₁, h1, h2⟩ := bind_apply_eq_ok.mp h
    simpa using ih (fun b' hb' => hf b' (List.mem_cons_of_mem _ hb'))
      (hf b (List.mem_cons_self _ _) p a s a₁ s₁ h0 h1) h2

/-- A loop that fails stops at an element `b` of the list, and its error and
    state satisfy every property `Q` of the elements visited up to `b` that a
    failing iteration establishes from where the invariant `I` of successful
    iterations holds. -/
theorem foldlM_error_induction (I : List β → α → σ → Prop) (Q : List β → ε → σ → Prop)
    (hI : ∀ p a b s a' s', I p a s → f a b s = .ok a' s' → I (p ++ [b]) a' s')
    (hQ : ∀ p a b s e s', I p a s → f a b s = .error e s' → Q (p ++ [b]) e s') :
    ∀ (l p : List β) {a : α} {s s' : σ} {e : ε}, I p a s → l.foldlM f a s = .error e s' →
      ∃ q, q <+: l ∧ Q (p ++ q) e s'
  | [], _, _, _, _, _, _, h => by cases h
  | b :: l, p, a, s, s', e, hi, h => by
    rw [List.foldlM_cons] at h
    rcases bind_apply_eq_error.mp h with h1 | ⟨a₁, s₁, h1, h2⟩
    · exact ⟨[b], by simp, hQ p a b s e s' hi h1⟩
    · obtain ⟨q, hq, hl⟩ :=
        foldlM_error_induction I Q hI hQ l (p ++ [b]) (hI p a b s a₁ s₁ hi h1) h2
      exact ⟨b :: q, List.cons_prefix_cons.mpr ⟨rfl, hq⟩, by simpa using hl⟩

/-- Whether the loop succeeds or fails, the state it leaves satisfies every
    property `Q` of the visited elements and the state that each iteration
    keeps from where the invariant `I` of successful iterations holds. The
    elements visited are a prefix of the list. -/
theorem stateOf_foldlM_prefix (I : List β → α → σ → Prop) (Q : List β → σ → Prop)
    (hI : ∀ p a b s a' s', I p a s → f a b s = .ok a' s' → I (p ++ [b]) a' s')
    (hQ : ∀ p a b s, I p a s → Q p s → Q (p ++ [b]) (stateOf (f a b s))) :
    ∀ (l p : List β) (a : α) (s : σ), I p a s → Q p s →
      ∃ q, q <+: l ∧ Q (p ++ q) (stateOf (l.foldlM f a s))
  | [], p, a, s, _, hq => ⟨[], List.nil_prefix, by simpa using hq⟩
  | b :: l, p, a, s, hi, hq => by
    rw [List.foldlM_cons]
    show ∃ q, q <+: b :: l ∧ Q (p ++ q) (stateOf (EStateM.bind _ _ s))
    unfold EStateM.bind
    have hb := hQ p a b s hi hq
    rcases h1 : f a b s with ⟨a₁, s₁⟩ | ⟨e, s₁⟩
    · rw [h1] at hb
      obtain ⟨q, hpre, hl⟩ :=
        stateOf_foldlM_prefix I Q hI hQ l (p ++ [b]) a₁ s₁ (hI p a b s a₁ s₁ hi h1) hb
      exact ⟨b :: q, List.cons_prefix_cons.mpr ⟨rfl, hpre⟩, by simpa using hl⟩
    · rw [h1] at hb
      exact ⟨[b], by simp, hb⟩

end Loops

theorem getRevState_apply (env : Env) (credInfo : CredInfoProver)
    (revRegId credRevId tailsFile : String) (fromTs toTs : Option Nat) (w : World) :
    getRevState env credInfo revRegId credRevId tailsFile fromTs toTs w =
      match revStateFromCache env revRegId credRevId tailsFile fromTs toTs
          (w.cache revRegId credRevId) [] with
      | .ok a calls => .ok a (w.recordAll (calls.map (Event.mk credInfo)))
      | .error e calls => .error e (w.recordAll (calls.map (Event.mk credInfo))) := by
  simp only [getRevState, getRevRegCache, runCalls, bind, EStateM.bind]
  cases revStateFromCache env revRegId credRevId tailsFile fromTs toTs
    (w.cache revRegId credRevId) [] <;> rfl

theorem parseRevState_apply (parser : JsonParser) (revStateJson : String) (w : World) :
    parseRevState parser revStateJson w =
      match parser.parse revStateJson with
      | .ok v => .ok v w
      | .error err => .error (.fromMsg .invalidJson ("Cannot deserialize RevocationState: " ++ err)) w := by
  unfold parseRevState
  cases parser.parse revStateJson <;> rfl

@[simp] theorem World.record_log (w : World) (e : Event) : (w.record e).log = w.log ++ [e] := rfl

@[simp] theorem World.recordAll_nil (w : World) : w.recordAll [] = w := rfl

@[simp] theorem World.recordAll_cons (w : World) (e : Event) (evs : List Event) :
    w.recordAll (e :: evs) = (w.record e).recordAll evs := rfl

@[simp] theorem World.recordAll_append (w : World) (evs evs' : List Event) :
    w.recordAll (evs ++ evs') = (w.recordAll evs).recordAll evs' := List.foldl_append _ _ _ _

@[simp] theorem World.recordAll_log (w : World) (evs : List Event) :
    (w.recordAll evs).log = w.log ++ evs := by
  induction evs generalizing w with
  | nil => simp
  | cons e evs ih => simp [ih]

end VcxProver

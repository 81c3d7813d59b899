/-
  VcxProver.RevStates.Trace

  What building one registry's revocation state can do, said once. The two
  refresh branches are put in closed form, and every later result uses the facts
  derived from these closed forms. A refresh makes at most one definition fetch,
  one delta fetch and one crypto call. Every cache write stores the timestamp
  and the state that the ledger and the crypto engine answered with. A write
  goes past the entry that was read, unless the ledger was asked with no upper
  bound. The reuse branch makes no call at all.
-/
import VcxProver.RevStates.Defs

namespace VcxProver

/-! ## Kinds of calls -/

namespace Call

@[simp] def isDefFetch : Call → Bool
  | .getRevRegDefJson .. => true
  | _ => false

@[simp] def isDeltaFetch : Call → Bool
  | .getRevRegDeltaJson .. => true
  | _ => false

@[simp] def isCrypto : Call → Bool
  | .proverUpdateRevocationState .. | .proverCreateRevocationState .. => true
  | _ => false

/-- The registry a call names: the one fetched, or the key written. -/
@[simp] def revRegId : Call → Option String
  | .getRevRegDefJson r _ | .getRevRegDeltaJson r _ _ _ | .setRevRegCache r _ _ => some r
  | _ => none

/-- The call got the answer the collaborators give for its arguments. -/
@[simp] def AnsweredBy (env : Env) : Call → Prop
  | .getRevRegDefJson r a => a = env.getRevRegDefJson r
  | .getRevRegDeltaJson r f t a => a = env.getRevRegDeltaJson r f t
  | .proverUpdateRevocationState d s dj cr t a => a = env.proverUpdateRevocationState d s dj cr t
  | .proverCreateRevocationState d dj cr t a => a = env.proverCreateRevocationState d dj cr t
  | .setRevRegCache .. => True

/-- The error a call was answered with, if it failed. -/
def failed : Call → Option VcxError
  | .getRevRegDefJson _ (.error e) | .getRevRegDeltaJson _ _ _ (.error e)
  | .proverUpdateRevocationState _ _ _ _ _ (.error e)
  | .proverCreateRevocationState _ _ _ _ (.error e) => some e
  | _ => none

/-- The state a crypto call answered with, if it succeeded. -/
def cryptoAnswer : Call → Option String
  | .proverUpdateRevocationState _ _ _ _ _ (.ok j) | .proverCreateRevocationState _ _ _ _ (.ok j) =>
    some j
  | _ => none

end Call

/-- The calls a `CallM` computation makes from an empty log. -/
def callsOf {α : Type} (m : CallM α) : List Call := stateOf (m [])

/-! ## Closed forms -/

section ClosedForms

variable (env : Env) (revRegId credRevId tailsFile : String)

theorem createRevState_apply (toTs : Option Nat) (calls : List Call) :
    createRevState env revRegId credRevId tailsFile toTs calls =
      match env.getRevRegDefJson revRegId with
      | .error e => .error e (calls ++ [.getRevRegDefJson revRegId (.error e)])
      | .ok (i, d) =>
        match env.getRevRegDeltaJson revRegId none toTs with
        | .error e => .error e (calls ++ [.getRevRegDefJson revRegId (.ok (i, d)),
            .getRevRegDeltaJson revRegId none toTs (.error e)])
        | .ok (r, dj, ts) =>
          match env.proverCreateRevocationState d dj credRevId tailsFile with
          | .error e => .error e (calls ++ [.getRevRegDefJson revRegId (.ok (i, d)),
              .getRevRegDeltaJson revRegId none toTs (.ok (r, dj, ts)),
              .proverCreateRevocationState d dj credRevId tailsFile (.error e)])
          | .ok j => .ok (j, ts) (calls ++ [.getRevRegDefJson revRegId (.ok (i, d)),
              .getRevRegDeltaJson revRegId none toTs (.ok (r, dj, ts)),
              .proverCreateRevocationState d dj credRevId tailsFile (.ok j),
              .setRevRegCache r credRevId ⟨some ⟨ts, j⟩⟩]) := by
  unfold createRevState getRevRegDefJson getRevRegDeltaJson proverCreateRevocationState
    setRevRegCache callOut
  rcases h1 : env.getRevRegDefJson revRegId with e | ⟨i, d⟩
  · simp [bind, EStateM.bind, h1]
  rcases h2 : env.getRevRegDeltaJson revRegId none toTs with e | ⟨r, dj, ts⟩
  · simp [bind, EStateM.bind, h1, h2]
  rcases h3 : env.proverCreateRevocationState d dj credRevId tailsFile with e | j <;>
    simp [bind, EStateM.bind, h1, h2, h3, pure, EStateM.pure]

theorem updateRevState_apply (cached : RevState) (fromTs : Option Nat) (toTs : Nat)
    (calls : List Call) :
    updateRevState env revRegId credRevId tailsFile cached fromTs toTs calls =
      match env.getRevRegDefJson revRegId with
      | .error e => .error e (calls ++ [.getRevRegDefJson revRegId (.error e)])
      | .ok (i, d) =>
        match env.getRevRegDeltaJson revRegId (deltaFrom fromTs cached.timestamp) (some toTs) with
        | .error e => .error e (calls ++ [.getRevRegDefJson revRegId (.ok (i, d)),
            .getRevRegDeltaJson revRegId (deltaFrom fromTs cached.timestamp) (some toTs) (.error e)])
        | .ok (r, dj, ts) =>
          match env.proverUpdateRevocationState d cached.value dj credRevId tailsFile with
          | .error e => .error e (calls ++ [.getRevRegDefJson revRegId (.ok (i, d)),
              .getRevRegDeltaJson revRegId (deltaFrom fromTs cached.timestamp) (some toTs)
                (.ok (r, dj, ts)),
              .proverUpdateRevocationState d cached.value dj credRevId tailsFile (.error e)])
          | .ok j => .ok (j, ts) (calls ++ [.getRevRegDefJson revRegId (.ok (i, d)),
              .getRevRegDeltaJson revRegId (deltaFrom fromTs cached.timestamp) (some toTs)
                (.ok (r, dj, ts)),
              .proverUpdateRevocationState d cached.value dj credRevId tailsFile (.ok j)] ++
              if ts > cached.timestamp then [.setRevRegCache r credRevId ⟨some ⟨ts, j⟩⟩] else []) := by
  unfold updateRevState getRevRegDefJson getRevRegDeltaJson proverUpdateRevocationState
    setRevRegCache callOut
  rcases h1 : env.getRevRegDefJson revRegId with e | ⟨i, d⟩
  · simp [bind, EStateM.bind, h1]
  rcases h2 : env.getRevRegDeltaJson revRegId (deltaFrom fromTs cached.timestamp) (some toTs)
    with e | ⟨r, dj, ts⟩
  · simp [bind, EStateM.bind, h1, h2]
  rcases h3 : env.proverUpdateRevocationState d cached.value dj credRevId tailsFile with e | j
  · simp [bind, EStateM.bind, h1, h2, h3]
  by_cases hts : ts > cached.timestamp <;>
    simp [bind, EStateM.bind, h1, h2, h3, hts, pure, EStateM.pure]

end ClosedForms

/-! ## What a refresh can do -/

/-- The calls of one registry's refresh, made after reading `entry` under
    `(revRegId, credRevId)`. Every answer is the collaborators' own, both
    fetches name the registry, and there is at most one call of each kind.
    Every cache write stores what the ledger and the crypto engine answered,
    past the entry read unless the ledger was asked with no upper bound. -/
structure RefreshCalls (env : Env) (revRegId credRevId : String) (entry : RevRegCache)
    (calls : List Call) : Prop where
  answered : ∀ call ∈ calls, call.AnsweredBy env
  fetchesNamed : ∀ call ∈ calls, call.isDefFetch ∨ call.isDeltaFetch →
    call.revRegId = some revRegId
  defFetches : calls.countP Call.isDefFetch ≤ 1
  deltaFetches : calls.countP Call.isDeltaFetch ≤ 1
  cryptoCalls : calls.countP Call.isCrypto ≤ 1
  writes : ∀ r c x, Call.setRevRegCache r c x ∈ calls → c = credRevId ∧ ∃ s, x = ⟨some s⟩ ∧
    (∃ call ∈ calls, call.cryptoAnswer = some s.value) ∧
    ∃ f t d, Call.getRevRegDeltaJson revRegId f t (.ok (r, d, s.timestamp)) ∈ calls ∧
      ∀ old, entry.revState = some old → old.timestamp < s.timestamp ∨ t = none

section Refresh

variable {env : Env} {revRegId credRevId tailsFile : String} {entry : RevRegCache}

theorem createRevState_calls {toTs : Option Nat}
    (h : ∀ old, entry.revState = some old → toTs = none) :
    RefreshCalls env revRegId credRevId entry
      (callsOf (createRevState env revRegId credRevId tailsFile toTs)) := by
  unfold callsOf
  rw [createRevState_apply]
  rcases h1 : env.getRevRegDefJson revRegId with e | ⟨i, d⟩ <;> simp only [h1]
  · constructor <;> simp [h1]
  rcases h2 : env.getRevRegDeltaJson revRegId none toTs with e | ⟨r, dj, ts⟩ <;> simp only [h2]
  · constructor <;> simp [h1, h2]
  rcases h3 : env.proverCreateRevocationState d dj credRevId tailsFile with e | j <;>
    simp only [h3]
  · constructor <;> simp [h1, h2, h3]
  constructor <;> simp [h1, h2, h3]
  rintro r c x rfl rfl rfl
  exact ⟨rfl, _, rfl, by simp [Call.cryptoAnswer], _, _, ⟨rfl, rfl, rfl, rfl⟩,
    fun old hold => .inr (h old hold)⟩

theorem updateRevState_calls {cached : RevState} {fromTs : Option Nat} {toTs : Nat}
    (h : entry.revState = some cached) :
    RefreshCalls env revRegId credRevId entry
      (callsOf (updateRevState env revRegId credRevId tailsFile cached fromTs toTs)) := by
  unfold callsOf
  rw [updateRevState_apply]
  rcases h1 : env.getRevRegDefJson revRegId with e | ⟨i, d⟩ <;> simp only [h1]
  · constructor <;> simp [h1]
  rcases h2 : env.getRevRegDeltaJson revRegId (deltaFrom fromTs cached.timestamp) (some toTs)
    with e | ⟨r, dj, ts⟩ <;> simp only [h2]
  · constructor <;> simp [h1, h2]
  rcases h3 : env.proverUpdateRevocationState d cached.value dj credRevId tailsFile with e | j <;>
    simp only [h3]
  · constructor <;> simp [h1, h2, h3]
  by_cases hts : ts > cached.timestamp
  · constructor <;> simp [h1, h2, h3, hts]
    rintro r c x rfl rfl rfl
    exact ⟨rfl, _, rfl, by simp [Call.cryptoAnswer], _, _, ⟨rfl, rfl, rfl, rfl⟩,
      fun old hold => .inl (by rw [h, Option.some.injEq] at hold; exact hold ▸ hts)⟩
  · constructor <;> simp [h1, h2, h3, hts]

/-- Every refresh, whichever branch it takes. -/
theorem revStateFromCache_calls {fromTs toTs : Option Nat} :
    RefreshCalls env revRegId credRevId entry
      (callsOf (revStateFromCache env revRegId credRevId tailsFile fromTs toTs entry)) := by
  unfold revStateFromCache
  rcases hc : entry.revState with _ | cached <;> rcases toTs with _ | upper
  · exact createRevState_calls (by simp [hc])
  · exact createRevState_calls (by simp [hc])
  · exact createRevState_calls (fun _ _ => rfl)
  · simp only
    split_ifs
    · constructor <;> simp [callsOf, pure, EStateM.pure]
    · exact updateRevState_calls hc

/-- The reuse branch: a cached state inside `[from.unwrap_or(0), to]` is used as
    it is, with no call. -/
theorem revStateFromCache_reuse {fromTs : Option Nat} {upper : Nat} {cached : RevState}
    (calls : List Call) (hc : entry.revState = some cached)
    (hw : fromTs.getD 0 ≤ cached.timestamp ∧ cached.timestamp ≤ upper) :
    revStateFromCache env revRegId credRevId tailsFile fromTs (some upper) entry calls =
      .ok (cached.value, cached.timestamp) calls := by
  simp [revStateFromCache, hc, hw, pure, EStateM.pure]

/-- The ledger never dates a delta past the upper bound it was asked for. -/
def Env.DeltaWithinBound (env : Env) : Prop :=
  ∀ r f u r' d t, env.getRevRegDeltaJson r f (some u) = .ok (r', d, t) → t ≤ u

/-- A state built for a window with an upper bound is dated within it. -/
theorem revStateFromCache_timestamp_le (henv : env.DeltaWithinBound) {fromTs : Option Nat}
    {upper : Nat} {calls calls' : List Call} {j : String} {ts : Nat}
    (h : revStateFromCache env revRegId credRevId tailsFile fromTs (some upper) entry calls =
      .ok (j, ts) calls') : ts ≤ upper := by
  unfold revStateFromCache at h
  rcases hc : entry.revState with _ | cached <;> simp only [hc] at h
  · rw [createRevState_apply] at h
    split at h
    · cases h
    · split at h
      · cases h
      · rename_i h2
        split at h <;> cases h
        exact henv _ _ _ _ _ _ h2
  · split_ifs at h with hw
    · cases h
      exact hw.2
    · rw [updateRevState_apply] at h
      split at h
      · cases h
      · split at h
        · cases h
        · rename_i h2
          split at h <;> cases h
          exact henv _ _ _ _ _ _ h2

/-- The fresh-create branch, when it succeeds, made no failed call and ended
    with the write of the state it returns. -/
theorem createRevState_ok_cases {toTs : Option Nat} {j : String} {ts : Nat} {calls : List Call}
    (h : createRevState env revRegId credRevId tailsFile toTs [] = .ok (j, ts) calls) :
    (∀ x ∈ calls, x.failed = none) ∧
      ∃ pre r, calls = pre ++ [.setRevRegCache r credRevId ⟨some ⟨ts, j⟩⟩] ∧
        (∀ r c y, Call.setRevRegCache r c y ∉ pre) ∧
        ∃ f t d, env.getRevRegDeltaJson revRegId f t = .ok (r, d, ts) := by
  rw [createRevState_apply] at h
  rcases h1 : env.getRevRegDefJson revRegId with e | ⟨i, d⟩ <;> simp only [h1, reduceCtorEq] at h
  rcases h2 : env.getRevRegDeltaJson revRegId none toTs with e | ⟨r, dj, ts'⟩ <;>
    simp only [h2, reduceCtorEq] at h
  rcases h3 : env.proverCreateRevocationState d dj credRevId tailsFile with e | j' <;>
    simp only [h3, reduceCtorEq] at h
  cases h
  exact ⟨by simp [Call.failed], [_, _, _], r, rfl, by simp, _, _, _, h2⟩

/-- The delta-update branch, when it succeeds, made no failed call. It ended
    with the write of the state it returns, or wrote nothing because the
    cached state was at least as new. -/
theorem updateRevState_ok_cases {cached : RevState} {fromTs : Option Nat} {toTs : Nat}
    {j : String} {ts : Nat} {calls : List Call}
    (h : updateRevState env revRegId credRevId tailsFile cached fromTs toTs [] =
      .ok (j, ts) calls) :
    (∀ x ∈ calls, x.failed = none) ∧
    (((∀ r c y, Call.setRevRegCache r c y ∉ calls) ∧ ts ≤ cached.timestamp) ∨
      ∃ pre r, calls = pre ++ [.setRevRegCache r credRevId ⟨some ⟨ts, j⟩⟩] ∧
        (∀ r c y, Call.setRevRegCache r c y ∉ pre) ∧
        ∃ f t d, env.getRevRegDeltaJson revRegId f t = .ok (r, d, ts)) := by
  rw [updateRevState_apply] at h
  rcases h1 : env.getRevRegDefJson revRegId with e | ⟨i, d⟩ <;> simp only [h1, reduceCtorEq] at h
  rcases h2 : env.getRevRegDeltaJson revRegId (deltaFrom fromTs cached.timestamp) (some toTs)
    with e | ⟨r, dj, ts'⟩ <;> simp only [h2, reduceCtorEq] at h
  rcases h3 : env.proverUpdateRevocationState d cached.value dj credRevId tailsFile with e | j' <;>
    simp only [h3, reduceCtorEq] at h
  cases h
  by_cases hts : ts > cached.timestamp
  · rw [if_pos hts]
    exact ⟨by simp [Call.failed], .inr ⟨[_, _, _], r, rfl, by simp, _, _, _, h2⟩⟩
  · rw [if_neg hts]
    exact ⟨by simp [Call.failed], .inl ⟨by simp, Nat.le_of_not_lt hts⟩⟩

/-- A successful refresh made no failed call. It either wrote nothing and
    read an entry holding a state at least as new as the one it returns, or
    it ended with its one write: the state it returns, under the registry id
    of a delta the ledger dated with the returned timestamp. -/
theorem revStateFromCache_ok_cases {fromTs toTs : Option Nat} {j : String} {ts : Nat}
    {calls : List Call}
    (h : revStateFromCache env revRegId credRevId tailsFile fromTs toTs entry [] =
      .ok (j, ts) calls) :
    (∀ x ∈ calls, x.failed = none) ∧
    (((∀ r c y, Call.setRevRegCache r c y ∉ calls) ∧
        ∃ s, entry.revState = some s ∧ ts ≤ s.timestamp) ∨
      ∃ pre r, calls = pre ++ [.setRevRegCache r credRevId ⟨some ⟨ts, j⟩⟩] ∧
        (∀ r c y, Call.setRevRegCache r c y ∉ pre) ∧
        ∃ f t d, env.getRevRegDeltaJson revRegId f t = .ok (r, d, ts)) := by
  unfold revStateFromCache at h
  rcases hc : entry.revState with _ | cached
  · simp only [hc] at h
    obtain ⟨hf, hw⟩ := createRevState_ok_cases h
    exact ⟨hf, .inr hw⟩
  rcases toTs with _ | upper
  · simp only [hc] at h
    obtain ⟨hf, hw⟩ := createRevState_ok_cases h
    exact ⟨hf, .inr hw⟩
  simp only [hc] at h
  split_ifs at h with hw
  · cases h
    exact ⟨by simp, .inl ⟨by simp, cached, rfl, le_rfl⟩⟩
  · obtain ⟨hf, hnw | hw⟩ := updateRevState_ok_cases h
    · exact ⟨hf, .inl ⟨hnw.1, cached, rfl, hnw.2⟩⟩
    · exact ⟨hf, .inr hw⟩

/-- The fresh-create branch, when it fails, stops at the call that failed:
    that call comes last, with the error returned, after calls that all
    succeeded. -/
theorem createRevState_error {toTs : Option Nat} {e : VcxError} {calls : List Call}
    (h : createRevState env revRegId credRevId tailsFile toTs [] = .error e calls) :
    ∃ pre call, calls = pre ++ [call] ∧ call.failed = some e ∧ ∀ x ∈ pre, x.failed = none := by
  rw [createRevState_apply] at h
  rcases h1 : env.getRevRegDefJson revRegId with e₁ | ⟨i, d⟩ <;> simp only [h1, reduceCtorEq] at h
  · cases h
    exact ⟨[], _, rfl, rfl, by simp⟩
  rcases h2 : env.getRevRegDeltaJson revRegId none toTs with e₂ | ⟨r, dj, ts⟩ <;>
    simp only [h2, reduceCtorEq] at h
  · cases h
    exact ⟨[_], _, rfl, rfl, by simp [Call.failed]⟩
  rcases h3 : env.proverCreateRevocationState d dj credRevId tailsFile with e₃ | j <;>
    simp only [h3, reduceCtorEq] at h
  cases h
  exact ⟨[_, _], _, rfl, rfl, by simp [Call.failed]⟩

/-- The delta-update branch, when it fails, stops at the call that failed. -/
theorem updateRevState_error {cached : RevState} {fromTs : Option Nat} {toTs : Nat}
    {e : VcxError} {calls : List Call}
    (h : updateRevState env revRegId credRevId tailsFile cached fromTs toTs [] = .error e calls) :
    ∃ pre call, calls = pre ++ [call] ∧ call.failed = some e ∧ ∀ x ∈ pre, x.failed = none := by
  rw [updateRevState_apply] at h
  rcases h1 : env.getRevRegDefJson revRegId with e₁ | ⟨i, d⟩ <;> simp only [h1, reduceCtorEq] at h
  · cases h
    exact ⟨[], _, rfl, rfl, by simp⟩
  rcases h2 : env.getRevRegDeltaJson revRegId (deltaFrom fromTs cached.timestamp) (some toTs)
    with e₂ | ⟨r, dj, ts⟩ <;> simp only [h2, reduceCtorEq] at h
  · cases h
    exact ⟨[_], _, rfl, rfl, by simp [Call.failed]⟩
  rcases h3 : env.proverUpdateRevocationState d cached.value dj credRevId tailsFile with e₃ | j <;>
    simp only [h3, reduceCtorEq] at h
  · cases h
    exact ⟨[_, _], _, rfl, rfl, by simp [Call.failed]⟩

/-- A refresh that fails stops at the call that failed: that call comes last,
    with the error returned, and every call before it succeeded. -/
theorem revStateFromCache_error {fromTs toTs : Option Nat} {e : VcxError} {calls : List Call}
    (h : revStateFromCache env revRegId credRevId tailsFile fromTs toTs entry [] =
      .error e calls) :
    ∃ pre call, calls = pre ++ [call] ∧ call.failed = some e ∧ ∀ x ∈ pre, x.failed = none := by
  unfold revStateFromCache at h
  rcases hc : entry.revState with _ | cached
  · simp only [hc] at h
    exact createRevState_error h
  rcases toTs with _ | upper
  · simp only [hc] at h
    exact createRevState_error h
  simp only [hc] at h
  split_ifs at h
  · cases h
  · exact updateRevState_error h

end Refresh

end VcxProver

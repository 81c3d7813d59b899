/-
  VcxProver.Json

  The part of `serde_json` that the prover core touches: the `Value` tree, the
  accessors `v[key]`, `get` and `as_str`, and `Map::insert`. An object is an
  association list in iteration order. `Json.WF` says that no object repeats a
  key, which `serde_json::Map` guarantees by construction. The text parser
  `serde_json::from_str` is a library function, not code of this repository.
  It enters as a `JsonParser`: any function whose documents are well formed.
-/
import Mathlib.Data.List.Nodup

namespace VcxProver

/-- `serde_json::Value`. Numbers are integers: the prover core writes only
    `u64` timestamps and reads no number. -/
inductive Json where
  | null
  | bool (b : Bool)
  | number (n : Int)
  | string (s : String)
  | array (elems : List Json)
  | object (entries : List (String × Json))
deriving Repr, Inhabited

section Lookup

variable {α : Type}

theorem lookup_cons_ne {a k : String} (v : α) (rest : List (String × α)) (h : a ≠ k) :
    ((k, v) :: rest).lookup a = rest.lookup a := by
  simp [List.lookup_cons, beq_false_of_ne h]

theorem mem_of_lookup_eq_some {m : List (String × α)} {k : String} {v : α}
    (h : m.lookup k = some v) : (k, v) ∈ m := by
  obtain ⟨l₁, l₂, rfl, -⟩ := List.lookup_eq_some_iff.mp h
  simp

theorem lookup_eq_none_iff_not_mem_keys {m : List (String × α)} {k : String} :
    m.lookup k = none ↔ k ∉ m.map Prod.fst := by
  simp only [List.lookup_eq_none_iff, bne_iff_ne, ne_eq, List.mem_map, not_exists, not_and]
  exact ⟨fun h p hp e => h p hp e.symm, fun h p hp e => h p hp e.symm⟩

theorem lookup_isSome_iff_mem_keys {m : List (String × α)} {k : String} :
    (m.lookup k).isSome ↔ k ∈ m.map Prod.fst := by
  rw [← not_iff_not, Option.not_isSome_iff_eq_none, lookup_eq_none_iff_not_mem_keys]

theorem lookup_eq_some_of_mem {m : List (String × α)} (h : (m.map Prod.fst).Nodup) {k : String}
    {v : α} (hm : (k, v) ∈ m) : m.lookup k = some v := by
  induction m with
  | nil => cases hm
  | cons e rest ih =>
    obtain ⟨k', u⟩ := e
    rw [List.map_cons, List.nodup_cons] at h
    rcases List.mem_cons.mp hm with he | hrest
    · obtain ⟨rfl, rfl⟩ := Prod.mk.inj he
      simp [List.lookup_cons]
    · have hk : k ≠ k' := fun e => h.1 (by subst e; exact List.mem_map.mpr ⟨_, hrest, rfl⟩)
      rw [lookup_cons_ne _ _ hk, ih h.2 hrest]

/-- Two maps with distinct keys and the same lookups hold the same entries. -/
theorem perm_of_lookup_eq {m₁ m₂ : List (String × α)} (h₁ : (m₁.map Prod.fst).Nodup)
    (h₂ : (m₂.map Prod.fst).Nodup) (h : ∀ k, m₁.lookup k = m₂.lookup k) : m₁.Perm m₂ := by
  rw [List.perm_ext_iff_of_nodup (h₁.of_map _) (h₂.of_map _)]
  rintro ⟨k, v⟩
  exact ⟨fun hm => mem_of_lookup_eq_some (by rw [← h]; exact lookup_eq_some_of_mem h₁ hm),
    fun hm => mem_of_lookup_eq_some (by rw [h]; exact lookup_eq_some_of_mem h₂ hm)⟩

/-- A map with unique keys is its keys, each looked up. -/
theorem eq_filterMap_lookup {m : List (String × α)} (h : (m.map Prod.fst).Nodup) :
    m = (m.map Prod.fst).filterMap fun k => (m.lookup k).map (k, ·) := by
  induction m with
  | nil => rfl
  | cons e rest ih =>
    obtain ⟨k, v⟩ := e
    rw [List.map_cons, List.nodup_cons] at h
    have hrest : (rest.map Prod.fst).filterMap (fun k' => (((k, v) :: rest).lookup k').map (k', ·)) =
        rest := by
      rw [List.filterMap_congr fun k' hk' => by
        rw [lookup_cons_ne v rest fun e => h.1 (by subst e; exact hk')]]
      exact (ih h.2).symm
    rw [List.map_cons, List.filterMap_cons, hrest]
    simp

end Lookup

namespace Json

/-- `Value::get(key)`: the member of an object, `None` for anything else. -/
def get : Json → String → Option Json
  | .object entries, key => entries.lookup key
  | _, _ => none

/-- `value[key]` (the `Index<&str>` impl): a missing member reads as `Null`. -/
def index (v : Json) (key : String) : Json := (v.get key).getD .null

/-- `Value::as_str`. -/
def asStr : Json → Option String
  | .string s => some s
  | _ => none

@[simp] theorem get_object (entries : List (String × Json)) (key : String) :
    (Json.object entries).get key = entries.lookup key := rfl

@[simp] theorem asStr_string (s : String) : (Json.string s).asStr = some s := rfl

/-- No object repeats a key, at any depth. -/
inductive WF : Json → Prop
  | null : WF .null
  | bool (b : Bool) : WF (.bool b)
  | number (n : Int) : WF (.number n)
  | string (s : String) : WF (.string s)
  | array {elems : List Json} : (∀ v ∈ elems, WF v) → WF (.array elems)
  | object {entries : List (String × Json)} :
      (entries.map Prod.fst).Nodup → (∀ e ∈ entries, WF e.2) → WF (.object entries)

theorem WF.get {v u : Json} {key : String} (hv : v.WF) (h : v.get key = some u) : u.WF := by
  cases hv with
  | object _ hall => exact hall (key, u) (mem_of_lookup_eq_some h)
  | _ => cases h

theorem WF.index {v : Json} (hv : v.WF) (key : String) : (v.index key).WF := by
  unfold Json.index
  cases h : v.get key with
  | none => exact .null
  | some u => exact hv.get h

mutual
/-- `WF` as a check that runs. -/
def keysUnique : Json → Bool
  | .array elems => allKeysUnique elems
  | .object entries => (entries.map Prod.fst).Nodup && entriesKeysUnique entries
  | _ => true

def allKeysUnique : List Json → Bool
  | [] => true
  | v :: vs => v.keysUnique && allKeysUnique vs

def entriesKeysUnique : List (String × Json) → Bool
  | [] => true
  | (_, v) :: es => v.keysUnique && entriesKeysUnique es
end

mutual
theorem wf_of_keysUnique : ∀ {v : Json}, v.keysUnique = true → v.WF
  | .null, _ => .null
  | .bool b, _ => .bool b
  | .number n, _ => .number n
  | .string s, _ => .string s
  | .array _, h => .array (wf_of_allKeysUnique (by simpa [keysUnique] using h))
  | .object _, h => by
    simp only [keysUnique, Bool.and_eq_true, decide_eq_true_eq] at h
    exact .object h.1 (wf_of_entriesKeysUnique h.2)

theorem wf_of_allKeysUnique : ∀ {vs : List Json}, allKeysUnique vs = true → ∀ v ∈ vs, v.WF
  | [], _ => by simp
  | _ :: _, h => by
    simp only [allKeysUnique, Bool.and_eq_true] at h
    intro u hu
    rcases List.mem_cons.mp hu with rfl | hu
    · exact wf_of_keysUnique h.1
    · exact wf_of_allKeysUnique h.2 u hu

theorem wf_of_entriesKeysUnique :
    ∀ {es : List (String × Json)}, entriesKeysUnique es = true → ∀ e ∈ es, e.2.WF
  | [], _ => by simp
  | (_, _) :: _, h => by
    simp only [entriesKeysUnique, Bool.and_eq_true] at h
    intro u hu
    rcases List.mem_cons.mp hu with rfl | hu
    · exact wf_of_keysUnique h.1
    · exact wf_of_entriesKeysUnique h.2 u hu
end

mutual
theorem keysUnique_of_wf : ∀ {v : Json}, v.WF → v.keysUnique = true
  | .null, _ | .bool _, _ | .number _, _ | .string _, _ => rfl
  | .array _, .array h => allKeysUnique_of_wf h
  | .object _, .object hnd h => by
    simp only [keysUnique, Bool.and_eq_true, decide_eq_true_eq]
    exact ⟨hnd, entriesKeysUnique_of_wf h⟩

theorem allKeysUnique_of_wf : ∀ {vs : List Json}, (∀ v ∈ vs, v.WF) → allKeysUnique vs = true
  | [], _ => rfl
  | _ :: _, h => by
    simp only [allKeysUnique, Bool.and_eq_true]
    exact ⟨keysUnique_of_wf (h _ (List.mem_cons_self _ _)),
      allKeysUnique_of_wf fun v hv => h v (List.mem_cons_of_mem _ hv)⟩

theorem entriesKeysUnique_of_wf :
    ∀ {es : List (String × Json)}, (∀ e ∈ es, e.2.WF) → entriesKeysUnique es = true
  | [], _ => rfl
  | (_, _) :: _, h => by
    simp only [entriesKeysUnique, Bool.and_eq_true]
    exact ⟨keysUnique_of_wf (h _ (List.mem_cons_self _ _)),
      entriesKeysUnique_of_wf fun e he => h e (List.mem_cons_of_mem _ he)⟩
end

instance : DecidablePred WF := fun v =>
  decidable_of_iff (v.keysUnique = true) ⟨wf_of_keysUnique, keysUnique_of_wf⟩

end Json

/-- `serde_json::from_str` at type `Value`: an error text or a document, and
    every document it returns is well formed. -/
structure JsonParser where
  parse : String → Except String Json
  wf : ∀ {s : String} {v : Json}, parse s = .ok v → v.WF

/-- The parser that knows the documents of a finite table of texts and rejects
    every other text. -/
def JsonParser.ofTable (table : List (String × Json)) (h : ∀ e ∈ table, e.2.WF) : JsonParser where
  parse s := match table.lookup s with
    | some v => .ok v
    | none => .error "expected value"
  wf {s v} hs := by
    dsimp only at hs
    split at hs
    · next hv =>
      cases hs
      exact h (s, v) (mem_of_lookup_eq_some hv)
    · cases hs

/-! ## Maps

`serde_json::Map::insert` and `HashMap::insert` on association lists: the value
of a present key is replaced in place, an absent key is appended. -/

section MapInsert

variable {α : Type}

/-- Insert `key ↦ v`, replacing the value of a present key. -/
def mapInsert (key : String) (v : α) : List (String × α) → List (String × α)
  | [] => [(key, v)]
  | e :: rest => if e.1 = key then (key, v) :: rest else e :: mapInsert key v rest

@[simp] theorem lookup_mapInsert_self (key : String) (v : α) (m : List (String × α)) :
    (mapInsert key v m).lookup key = some v := by
  induction m with
  | nil => simp [mapInsert]
  | cons e rest ih =>
    by_cases h : e.1 = key
    · simp [mapInsert, h]
    · simp [mapInsert, h, lookup_cons_ne _ _ (Ne.symm h), ih]

theorem lookup_mapInsert_ne {key k : String} (v : α) (m : List (String × α)) (hk : k ≠ key) :
    (mapInsert key v m).lookup k = m.lookup k := by
  induction m with
  | nil => simp [mapInsert, lookup_cons_ne _ _ hk]
  | cons e rest ih =>
    obtain ⟨k', u⟩ := e
    by_cases h : k' = key
    · subst h
      simp [mapInsert, lookup_cons_ne _ _ hk]
    · simp only [mapInsert, h, if_false, List.lookup_cons, ih]

theorem mapInsert_of_lookup_none {key : String} (v : α) {m : List (String × α)}
    (h : m.lookup key = none) : mapInsert key v m = m ++ [(key, v)] := by
  induction m with
  | nil => rfl
  | cons e rest ih =>
    obtain ⟨k, u⟩ := e
    have hk : k ≠ key := by
      rintro rfl
      simp at h
    rw [lookup_cons_ne _ _ (Ne.symm hk)] at h
    simp [mapInsert, hk, ih h]

theorem mem_keys_mapInsert {key k : String} (v : α) (m : List (String × α)) :
    k ∈ (mapInsert key v m).map Prod.fst ↔ k = key ∨ k ∈ m.map Prod.fst := by
  induction m with
  | nil => simp [mapInsert]
  | cons e rest ih =>
    by_cases h : e.1 = key
    · simp only [mapInsert, h, if_true, List.map_cons, List.mem_cons, or_self_left]
    · simp only [mapInsert, h, if_false, List.map_cons, List.mem_cons, ih, or_left_comm]

theorem nodup_keys_mapInsert (key : String) (v : α) {m : List (String × α)}
    (h : (m.map Prod.fst).Nodup) : ((mapInsert key v m).map Prod.fst).Nodup := by
  induction m with
  | nil => simp [mapInsert]
  | cons e rest ih =>
    rw [List.map_cons, List.nodup_cons] at h
    by_cases he : e.1 = key
    · simpa [mapInsert, he] using h
    · simp only [mapInsert, he, if_false, List.map_cons, List.nodup_cons, mem_keys_mapInsert]
      exact ⟨by simpa using h.1, ih h.2⟩

end MapInsert

end VcxProver

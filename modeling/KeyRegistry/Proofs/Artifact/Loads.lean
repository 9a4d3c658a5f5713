import KeyRegistry.Artifact.Store
import KeyRegistry.Proofs.Json.Outline
import Mathlib.Data.List.Permutation

/-!
# Loads one after another

A store keeps the contracts that it has loaded.  Nothing of that shows in what its
loads find: each finds what it would find on a fresh store, and only the object that
holds it is the one of an earlier load of the same key.
-/

namespace KeyRegistry
namespace Artifact
namespace Store

abbrev Answer : Type :=
  Key × Except Error (Shared Contract)

/-- What a load finds, whichever object holds it. -/
def Answer.found (answer : Answer) : Except Error Contract :=
  answer.2.map Shared.value

def loads (store : Store) : List Key -> List Answer × Store
  | [] => ([], store)
  | key :: keys =>
      let rest := loads (store.load key).2 keys
      ((key, (store.load key).1) :: rest.1, rest.2)

/-- Loads from a fresh store that find what each alone would find there, in one object a key. -/
structure Transparent (fresh : Store) (keys : List Key) : Prop where
  asked : (fresh.loads keys).1.map Prod.fst = keys
  as_fresh : forall key answer, (key, answer) ∈ (fresh.loads keys).1 ->
    Answer.found (key, answer) = Answer.found (key, (fresh.load key).1)
  carries_key : forall key shared, (key, .ok shared) ∈ (fresh.loads keys).1 ->
    shared.value.key = key
  cached_iff : forall key shared, (key, shared) ∈ (fresh.loads keys).2.cache ↔
    (key, .ok shared) ∈ (fresh.loads keys).1
  keys_eq : (fresh.loads keys).2.keys = fresh.keys
  one_object : forall key shared shared', (key, .ok shared) ∈ (fresh.loads keys).1 ->
    (key, .ok shared') ∈ (fresh.loads keys).1 -> shared = shared'
  own_object : forall key key' shared shared', (key, .ok shared) ∈ (fresh.loads keys).1 ->
    (key', .ok shared') ∈ (fresh.loads keys).1 -> shared.handle = shared'.handle -> key = key'

variable {fresh store : Store} {key : Key} {shared : Shared Contract}

/-! ## One load -/

theorem key_of_parseEntry {entry : Json} {contract : Contract}
    (h : parseEntry key entry = .ok contract) : contract.key = key := by
  unfold parseEntry at h
  cases habi : entry.member? "abi" with
  | none =>
      rw [habi] at h
      cases h
  | some abi =>
      cases hinterface : Abi.Interface.ofJson abi with
      | error cause =>
          simp only [habi, hinterface] at h
          cases h
      | ok interface =>
          simp only [habi, hinterface, pure_bind] at h
          split at h
          · split at h
            · cases h
            · split at h
              · cases h
                rfl
              · cases h
          · cases h

theorem key_of_find {contract : Contract} (h : store.find key = .ok contract) :
    contract.key = key := by
  unfold find at h
  cases hentry : store.contracts.find? fun entry => entry.1 = key.toString with
  | none =>
      rw [hentry] at h
      cases h
  | some entry =>
      rw [hentry] at h
      cases hparse : parseEntry key entry.2 with
      | error defect =>
          simp only [hparse] at h
          cases h
      | ok parsed =>
          simp only [hparse] at h
          cases h
          exact key_of_parseEntry hparse

def fill (store : Store) (contract : Contract) : Shared Contract where
  handle := store.cache.length
  value := contract

/-- What a load does: it answers with an object that is there, or refuses and leaves the store as
it is, or keeps what it finds as a new object. -/
inductive Loaded (store : Store) (key : Key) : Except Error (Shared Contract) × Store -> Prop where
  | cached {shared : Shared Contract} :
      (key, shared) ∈ store.cache ->
      Loaded store key (.ok shared, store)
  | refused {e : Error} :
      store.find key = .error e ->
      Loaded store key (.error e, store)
  | filled {contract : Contract} :
      key ∉ store.cache.map Prod.fst ->
      store.find key = .ok contract ->
      Loaded store key (.ok (store.fill contract),
        { store with cache := (key, store.fill contract) :: store.cache })

theorem loaded_load (store : Store) (key : Key) : Loaded store key (store.load key) := by
  unfold load
  cases hcached : store.cache.find? fun cached => cached.1 = key with
  | some cached =>
      have hkey := List.find?_some hcached
      rw [decide_eq_true_eq] at hkey
      apply Loaded.cached
      rw [← hkey]
      exact List.mem_of_find?_eq_some hcached
  | none =>
      cases hfind : store.find key with
      | error e => exact Loaded.refused hfind
      | ok contract =>
          apply Loaded.filled _ hfind
          intro hmem
          rcases List.mem_map.mp hmem with ⟨cached, hcache, hkey⟩
          exact List.find?_eq_none.mp hcached cached hcache (decide_eq_true hkey)

/-! ## Stores that have loaded -/

/-- A store that differs from a fresh one by objects of what the fresh one finds, one a key. -/
structure Coherent (fresh store : Store) : Prop where
  contracts_eq : store.contracts = fresh.contracts
  found : forall key shared, (key, shared) ∈ store.cache -> fresh.find key = .ok shared.value
  keys_once : (store.cache.map Prod.fst).Nodup
  handles_lt : forall key shared, (key, shared) ∈ store.cache ->
    shared.handle < store.cache.length
  handles_once : (store.cache.map fun cached => cached.2.handle).Nodup

theorem coherent_fresh (h : fresh.cache = []) : Coherent fresh fresh where
  contracts_eq := rfl
  found key shared hmem := by
    rw [h] at hmem
    cases hmem
  keys_once := by
    rw [h]
    exact List.nodup_nil
  handles_lt key shared hmem := by
    rw [h] at hmem
    cases hmem
  handles_once := by
    rw [h]
    exact List.nodup_nil

namespace Coherent

theorem find_eq (h : Coherent fresh store) (key : Key) : store.find key = fresh.find key := by
  unfold find
  rw [h.contracts_eq]

theorem fill (h : Coherent fresh store) {contract : Contract} (hnew : key ∉ store.cache.map Prod.fst)
    (hfind : store.find key = .ok contract) :
    Coherent fresh { store with cache := (key, store.fill contract) :: store.cache } where
  contracts_eq := h.contracts_eq
  found := by
    intro key' shared hmem
    rcases List.mem_cons.mp hmem with heq | hmem
    · cases heq
      rw [← h.find_eq]
      exact hfind
    · exact h.found key' shared hmem
  keys_once := List.nodup_cons.mpr ⟨hnew, h.keys_once⟩
  handles_lt := by
    intro key' shared hmem
    rcases List.mem_cons.mp hmem with heq | hmem
    · cases heq
      exact Nat.lt_succ_self _
    · exact Nat.lt_succ_of_lt (h.handles_lt key' shared hmem)
  handles_once := by
    -- The new handle is the count of the old ones, which are all below it.
    apply List.nodup_cons.mpr
    constructor
    · intro hmem
      rcases List.mem_map.mp hmem with ⟨⟨key', shared⟩, hcache, hhandle⟩
      exact absurd hhandle (Nat.ne_of_lt (h.handles_lt key' shared hcache))
    · exact h.handles_once

theorem load (h : Coherent fresh store) (key : Key) : Coherent fresh (store.load key).2 := by
  have hload := loaded_load store key
  generalize store.load key = result at hload
  cases hload with
  | cached _ => exact h
  | refused _ => exact h
  | filled hnew hfind => exact h.fill hnew hfind

theorem found_load (h : Coherent fresh store) (key : Key) :
    Answer.found (key, (store.load key).1) = fresh.find key := by
  have hload := loaded_load store key
  generalize store.load key = result at hload
  cases hload with
  | cached hcache => exact (h.found _ _ hcache).symm
  | refused hfind => exact hfind.symm.trans (h.find_eq key)
  | filled _ hfind => exact hfind.symm.trans (h.find_eq key)

theorem eq_of_key (h : Coherent fresh store) {shared' : Shared Contract}
    (hshared : (key, shared) ∈ store.cache) (hshared' : (key, shared') ∈ store.cache) :
    shared = shared' := by
  have hentry := List.inj_on_of_nodup_map h.keys_once hshared hshared' rfl
  exact congrArg Prod.snd hentry

theorem eq_of_handle (h : Coherent fresh store) {key' : Key} {shared' : Shared Contract}
    (hshared : (key, shared) ∈ store.cache) (hshared' : (key', shared') ∈ store.cache)
    (hhandle : shared.handle = shared'.handle) : key = key' := by
  have hentry := List.inj_on_of_nodup_map h.handles_once hshared hshared' hhandle
  exact congrArg Prod.fst hentry

end Coherent

theorem mem_cache_load_iff (store : Store) (key : Key) {key' : Key} :
    (key', shared) ∈ (store.load key).2.cache ↔
      (key', shared) ∈ store.cache ∨ (key', .ok shared) = (key, (store.load key).1) := by
  have hload := loaded_load store key
  generalize store.load key = result at hload
  cases hload with
  | cached hcache =>
      constructor
      · exact .inl
      · rintro (hmem | heq)
        · exact hmem
        · cases heq
          exact hcache
  | refused _ =>
      constructor
      · exact .inl
      · rintro (hmem | heq)
        · exact hmem
        · cases heq
  | filled _ _ =>
      rw [List.mem_cons, or_comm]
      apply or_congr_right
      constructor
      · intro heq
        cases heq
        rfl
      · intro heq
        cases heq
        rfl

/-! ## Histories of loads -/

theorem loads_cons (store : Store) (key : Key) (keys : List Key) :
    store.loads (key :: keys) =
      ((key, (store.load key).1) :: ((store.load key).2.loads keys).1,
        ((store.load key).2.loads keys).2) :=
  rfl

theorem map_fst_loads (store : Store) (keys : List Key) :
    (store.loads keys).1.map Prod.fst = keys := by
  induction keys generalizing store with
  | nil => rfl
  | cons key keys ih => exact congrArg (key :: ·) (ih _)

theorem Coherent.loads (h : Coherent fresh store) (keys : List Key) :
    Coherent fresh (store.loads keys).2 := by
  induction keys generalizing store with
  | nil => exact h
  | cons key keys ih => exact ih (h.load key)

theorem Coherent.found_loads (h : Coherent fresh store) {keys : List Key} {answer : Answer}
    (hmem : answer ∈ (store.loads keys).1) : answer.found = fresh.find answer.1 := by
  induction keys generalizing store with
  | nil => cases hmem
  | cons key keys ih =>
      rw [loads_cons] at hmem
      rcases List.mem_cons.mp hmem with rfl | hmem
      · exact h.found_load key
      · exact ih (h.load key) hmem

theorem mem_cache_loads_iff (store : Store) (keys : List Key) :
    (key, shared) ∈ (store.loads keys).2.cache ↔
      (key, shared) ∈ store.cache ∨ (key, .ok shared) ∈ (store.loads keys).1 := by
  induction keys generalizing store with
  | nil => exact ⟨.inl, fun h => h.resolve_right nofun⟩
  | cons key' keys ih =>
      rw [loads_cons, ih, mem_cache_load_iff, List.mem_cons, or_assoc]

theorem fresh_of_ofText {text : String} (h : ofText text = .ok fresh) :
    fresh.cache = [] ∧ ∃ entries, fresh.contracts = Json.collect entries := by
  unfold ofText at h
  cases hread : Json.read reader text with
  | error fault =>
      rw [hread] at h
      cases h
  | ok store =>
      rw [hread] at h
      cases h
      rw [Json.read_eq] at hread
      rcases ok_of_bind hread with ⟨store, hstore, hend⟩
      cases (Json.ending_ok hend ()).2
      rcases ok_of_bind hstore with ⟨draft, _, hdraft⟩
      rcases ok_of_bind hdraft with ⟨entries, _, hlast⟩
      cases hlast
      exact ⟨rfl, entries, rfl⟩

/-- Whatever keys are loaded from a document, in whatever order, the loads are transparent. -/
theorem loads_transparent {text : String} (h : ofText text = .ok fresh) (keys : List Key) :
    Transparent fresh keys := by
  have hempty := (fresh_of_ofText h).1
  have hfresh := coherent_fresh hempty
  have hlast := hfresh.loads keys
  have hcache : forall key shared, (key, shared) ∈ (fresh.loads keys).2.cache ↔
      (key, .ok shared) ∈ (fresh.loads keys).1 := by
    intro key shared
    rw [mem_cache_loads_iff, hempty]
    exact or_iff_right nofun
  exact {
    asked := map_fst_loads fresh keys
    as_fresh := by
      intro key answer hmem
      rw [hfresh.found_loads hmem, hfresh.found_load key]
    carries_key := by
      intro key shared hmem
      have hfound := hfresh.found_loads hmem
      exact key_of_find hfound.symm
    cached_iff := hcache
    keys_eq := by
      unfold Store.keys
      rw [hlast.contracts_eq]
    one_object := by
      intro key shared shared' hmem hmem'
      exact hlast.eq_of_key ((hcache _ _).mpr hmem) ((hcache _ _).mpr hmem')
    own_object := by
      intro key key' shared shared' hmem hmem' hhandle
      exact hlast.eq_of_handle ((hcache _ _).mpr hmem) ((hcache _ _).mpr hmem') hhandle }

/-- A document whose only entry has the texts of two keys, told apart by the colon that separates. -/
def colonDocument : String :=
  "\x7b\"contracts\":\x7b\"a:b:C\":\x7b\"abi\":[],\"bin\":\"6080\"\x7d\x7d\x7d"

def colonStore : Store where
  contracts := [("a:b:C", .record [("abi", .list []), ("bin", .text "6080")])]
  cache := []

def colonKeys : List Key :=
  [⟨"a", "b:C"⟩, ⟨"a:b", "C"⟩, ⟨"a", "D"⟩, ⟨"a", "b:C"⟩]

/-- Both keys find the entry, each in an object of its own, and the first one finds its object
again. -/
theorem loads_transparent_colon :
    ofText colonDocument = .ok colonStore ∧ Transparent colonStore colonKeys ∧
      (colonStore.loads colonKeys).1.map (fun answer => answer.2.map Shared.handle) =
        [.ok 0, .ok 1, .error (.notFound "a:D"), .ok 0] := by
  have hdocument : ofText colonDocument = .ok colonStore := by cbv
  have htransparent := loads_transparent hdocument colonKeys
  exact ⟨hdocument, htransparent, rfl⟩

end Store
end Artifact
end KeyRegistry

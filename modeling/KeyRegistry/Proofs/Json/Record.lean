import KeyRegistry.Proofs.Json.Table

/-!
# Records of members of different names

Where the members of a record have different names, a field becomes what its reader
finds in the member of its name, if there is one, in whatever order the members
stand.
-/

namespace KeyRegistry
namespace Json
namespace Reader

variable {σ : Type} {entries : List (String × Outline)} {s : σ}

/-- What a field becomes: what its reader finds in the member of its name, if there is one. -/
inductive Becomes {α : Type} (entries : List (String × Outline)) (name : String)
    (reader : Reader α) (before : Option α) : Option α -> Prop where
  | kept : name ∉ entries.map Prod.fst -> Becomes entries name reader before before
  | read {outline : Outline} {a : α} :
      (name, outline) ∈ entries ->
      reader outline = .ok a ->
      Becomes entries name reader before (some a)

variable {α : Type} {name : String} {get : σ -> Option α} {put : α -> σ -> σ} {reader : Reader α}

theorem becomes_of_scalar {values : List (String × Json)} {v : Json} {before : Option α} {a : α}
    (hvalues : Outline.memberValues entries = .ok values)
    (hmember : (Json.record values).member? name = some v) (hlist : forall items, v ≠ .list items)
    (hrecord : forall members, v ≠ .record members) (hread : reader (Outline.ofJson v) = .ok a) :
    Becomes entries name reader before (some a) := by
  rcases Outline.exists_entry hvalues hmember with ⟨outline, hmem, hvalue⟩
  cases Outline.ofJson_of_scalar hvalue hlist hrecord
  exact Becomes.read hmem hread

theorem filled_of_becomes {after : Option α} (hnames : (entries.map Prod.fst).Nodup)
    (h : Becomes entries name reader none after) :
    Table.Filled reader none (under name entries) after := by
  cases h with
  | kept hnone =>
      rw [under_eq_nil hnone]
      exact .kept
  | read hmem hread =>
      rw [under_eq_singleton hnames hmem]
      exact .read rfl hread

def Table.pair {β : Type} {other : String} {getOther : σ -> Option β} {putOther : β -> σ -> σ}
    (reader : Reader α) (readerOther : Reader β) (hname : name ≠ other)
    (hput : forall a s, get (put a s) = some a ∧ getOther (put a s) = getOther s)
    (hputOther : forall b s, getOther (putOther b s) = some b ∧ get (putOther b s) = get s) :
    Table σ where
  Slot := Bool
  slots := [true, false]
  name
    | true => name
    | false => other
  Value
    | true => α
    | false => β
  get
    | true => get
    | false => getOther
  put
    | true => put
    | false => putOther
  reader
    | true => reader
    | false => readerOther
  mem_slots := by
    decide
  name_injective
    | true, true, _ => rfl
    | true, false, h => absurd h hname
    | false, true, h => absurd h.symm hname
    | false, false, _ => rfl
  get_put
    | true, a, s => (hput a s).1
    | false, b, s => (hputOther b s).1
  get_put_of_ne
    | true, true, _, _, h => absurd rfl h
    | true, false, a, s, _ => (hput a s).2
    | false, true, b, s, _ => (hputOther b s).2
    | false, false, _, _, h => absurd rfl h

theorem exists_record_pair {β : Type} {other : String} {getOther : σ -> Option β}
    {putOther : β -> σ -> σ} {readerOther : Reader β} {a : Option α} {b : Option β}
    (hname : name ≠ other) (hunset : get s = none ∧ getOther s = none)
    (hput : forall a s, get (put a s) = some a ∧ getOther (put a s) = getOther s)
    (hputOther : forall b s, getOther (putOther b s) = some b ∧ get (putOther b s) = get s)
    (hnames : (entries.map Prod.fst).Nodup)
    (hskip : forall entry, entry ∈ entries -> Outline.skip entry.2 = .ok ())
    (ha : Becomes entries name reader none a) (hb : Becomes entries other readerOther none b) :
    ∃ s', record [field name get put reader, field other getOther putOther readerOther] s
        (.record entries none) = .ok s' ∧ get s' = a ∧ getOther s' = b := by
  let table := Table.pair reader readerOther hname hput hputOther
  have hfilled : Table.Filled reader (get s) (under name entries) a :=
    hunset.1 ▸ filled_of_becomes hnames ha
  have hfilledOther : Table.Filled readerOther (getOther s) (under other entries) b :=
    hunset.2 ▸ filled_of_becomes hnames hb
  have hread : ∃ s', members table.fields s entries = .ok s' := by
    apply Table.exists_members
    · intro slot
      cases slot with
      | true => exact ⟨a, hfilled⟩
      | false => exact ⟨b, hfilledOther⟩
    · exact hskip
  rcases hread with ⟨s', hs'⟩
  refine ⟨s', (record_entries _ s entries).trans hs', ?_, ?_⟩
  · exact (Table.filled_of_members hs' true).unique hfilled
  · exact (Table.filled_of_members hs' false).unique hfilledOther

end Reader
end Json
end KeyRegistry

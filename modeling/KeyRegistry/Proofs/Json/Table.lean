import KeyRegistry.Proofs.Json.Outline
import Mathlib.Data.List.Nodup

/-!
# Tables of fields

The fields of a record are a table: each slot has a name of its own, and a place of
its own in the record under construction.  What a slot becomes is what its reader
finds in the one member of its name.  So neither the order of the members matters
nor what stands under other names.
-/

namespace KeyRegistry
namespace Json

/-! ## Members of one name -/

section

variable {α : Type} {name other : String} {a : α} {members : List (String × α)}

def under (name : String) (members : List (String × α)) : List α :=
  (members.filter fun member => member.1 = name).map Prod.snd

theorem under_cons_self (name : String) (a : α) (members : List (String × α)) :
    under name ((name, a) :: members) = a :: under name members := by
  simp [under]

theorem under_cons_of_ne (h : other ≠ name) :
    under name ((other, a) :: members) = under name members := by
  simp [under, h]

theorem under_ofMembers (name : String) (members : List (String × Json)) :
    under name (Outline.ofMembers members) = (under name members).map Outline.ofJson := by
  induction members with
  | nil => rfl
  | cons member members ih =>
      rcases member with ⟨other, value⟩
      rw [Outline.ofMembers]
      by_cases hname : other = name
      · cases hname
        rw [under_cons_self, under_cons_self, ih, List.map_cons]
      · rw [under_cons_of_ne hname, under_cons_of_ne hname, ih]

theorem under_eq_nil (h : name ∉ members.map Prod.fst) : under name members = [] := by
  rw [under, List.map_eq_nil_iff, List.filter_eq_nil_iff]
  intro member hmember hname
  exact h (List.mem_map.mpr ⟨member, hmember, of_decide_eq_true hname⟩)

theorem under_eq_singleton (hnames : (members.map Prod.fst).Nodup) (h : (name, a) ∈ members) :
    under name members = [a] := by
  induction members with
  | nil => cases h
  | cons member members ih =>
      rw [List.map_cons, List.nodup_cons] at hnames
      rcases List.mem_cons.mp h with rfl | hmem
      · rw [under_cons_self, under_eq_nil hnames.1]
      · have hne : member.1 ≠ name := by
          rintro rfl
          exact hnames.1 (List.mem_map.mpr ⟨_, hmem, rfl⟩)
        rw [under_cons_of_ne hne, ih hnames.2 hmem]

theorem under_perm {other : List (String × α)} (h : members.Perm other) (name : String) :
    (under name members).Perm (under name other) :=
  (h.filter _).map _

def without (name : String) (members : List (String × α)) : List (String × α) :=
  members.filter fun member => member.1 ≠ name

theorem under_without_self (name : String) (members : List (String × α)) :
    under name (without name members) = [] := by
  rw [under, without, List.filter_filter, List.map_eq_nil_iff, List.filter_eq_nil_iff]
  intro member _
  simp

theorem under_without_of_ne (h : other ≠ name) (members : List (String × α)) :
    under name (without other members) = under name members := by
  rw [under, without, List.filter_filter]
  congr 1
  apply List.filter_congr
  intro member _
  by_cases hname : member.1 = name
  · simp [hname, h.symm]
  · simp [hname]

theorem under_put_self (name : String) (value : Json) (members : List (String × Json)) :
    under name (put name value members) = value :: (under name members).tail := by
  induction members with
  | nil => exact under_cons_self name value []
  | cons member members ih =>
      rcases member with ⟨first, v⟩
      rw [put]
      by_cases hname : first = name
      · cases hname
        rw [if_pos rfl, under_cons_self, under_cons_self, List.tail_cons]
      · rw [if_neg hname, under_cons_of_ne hname, under_cons_of_ne hname, ih]

theorem under_put_of_ne (h : other ≠ name) (value : Json) (members : List (String × Json)) :
    under name (put other value members) = under name members := by
  induction members with
  | nil => exact under_cons_of_ne h
  | cons member members ih =>
      rcases member with ⟨first, v⟩
      rw [put]
      by_cases hother : first = other
      · cases hother
        rw [if_pos rfl, under_cons_of_ne h, under_cons_of_ne h]
      · rw [if_neg hother]
        by_cases hname : first = name
        · cases hname
          rw [under_cons_self, under_cons_self, ih]
        · rw [under_cons_of_ne hname, under_cons_of_ne hname, ih]

end

namespace Reader

/-! ## Readers of values -/

def ReadsValues {α : Type} (reader : Reader α) : Prop :=
  forall {outline : Outline} {v : Json}, outline.value = .ok v ->
    reader outline = reader (Outline.ofJson v)

section

variable {α : Type} {reader : Reader α}

theorem readsValues_parsed (parse : String -> Except ValueError α) : ReadsValues (parsed parse) := by
  intro outline v h
  cases outline with
  | null | bool | number | text =>
      cases h
      rfl
  | list items tail =>
      rcases Outline.exists_list_of_value h with ⟨_, rfl⟩
      rfl
  | record members tail =>
      rcases Outline.exists_record_of_value h with ⟨_, rfl⟩
      rfl
  | stopped => cases h

theorem readsValues_optional (h : ReadsValues reader) : ReadsValues (optional reader) := by
  intro outline v hvalue
  have hread := h hvalue
  cases outline with
  | null | bool | number | text =>
      cases hvalue
      rfl
  | list items tail =>
      rcases Outline.exists_list_of_value hvalue with ⟨_, rfl⟩
      exact congrArg (Except.map some) hread
  | record members tail =>
      rcases Outline.exists_record_of_value hvalue with ⟨_, rfl⟩
      exact congrArg (Except.map some) hread
  | stopped => cases hvalue

end

/-! ## Members read in order -/

section

variable {σ : Type} {fields : List (Field σ)} {entries : List (String × Outline)} {s : σ}

def readMember (fields : List (Field σ)) (s : σ) (entry : String × Outline) : Except Fault σ :=
  match fields.find? fun f => f.name = entry.1 with
  | none => (Outline.skip entry.2).map fun _ => s
  | some f => if f.isSet s then .error .mismatched else f.read entry.2 s

theorem members_cons (entry : String × Outline) :
    members fields s (entry :: entries) =
      (readMember fields s entry >>= fun s => members fields s entries) := by
  rcases entry with ⟨name, outline⟩
  rw [members, readMember]
  cases fields.find? fun f => f.name = name with
  | none =>
      simp only
      cases Outline.skip outline <;> rfl
  | some f =>
      simp only
      by_cases hset : f.isSet s = true
      · rw [if_pos hset, if_pos hset]
        rfl
      · rw [if_neg hset, if_neg hset]

theorem record_entries (fields : List (Field σ)) (s : σ) (entries : List (String × Outline)) :
    record fields s (.record entries none) = members fields s entries := by
  rw [record]
  cases members fields s entries <;> rfl

end

/-! ## Fields in a table -/

structure Table (σ : Type) where
  Slot : Type
  slots : List Slot
  name : Slot -> String
  Value : Slot -> Type
  get : (i : Slot) -> σ -> Option (Value i)
  put : (i : Slot) -> Value i -> σ -> σ
  reader : (i : Slot) -> Reader (Value i)
  mem_slots : forall i, i ∈ slots
  name_injective : forall i j, name i = name j -> i = j
  get_put : forall i a s, get i (put i a s) = some a
  get_put_of_ne : forall i j a s, i ≠ j -> get j (put i a s) = get j s

namespace Table

variable {σ : Type} {table : Table σ} {s s' : σ} {entries : List (String × Outline)}

def field (table : Table σ) (i : table.Slot) : Field σ :=
  Reader.field (table.name i) (table.get i) (table.put i) (table.reader i)

def fields (table : Table σ) : List (Field σ) :=
  table.slots.map table.field

/-- What a slot becomes that held `before`, by the outlines under its name: it is left as it was,
or set by the only one. -/
inductive Filled {α : Type} (reader : Reader α) (before : Option α) :
    List Outline -> Option α -> Prop where
  | kept : Filled reader before [] before
  | read {outline : Outline} {a : α} :
      before = none ->
      reader outline = .ok a ->
      Filled reader before [outline] (some a)

theorem Filled.eq_of_set {α : Type} {reader : Reader α} {a : α} {outlines : List Outline}
    {after : Option α} (h : Filled reader (some a) outlines after) :
    outlines = [] ∧ after = some a := by
  cases h with
  | kept => exact ⟨rfl, rfl⟩
  | read hbefore _ => cases hbefore

theorem Filled.unique {α : Type} {reader : Reader α} {before after other : Option α}
    {outlines : List Outline} (h : Filled reader before outlines after)
    (hother : Filled reader before outlines other) : after = other := by
  cases h with
  | kept =>
      cases hother
      rfl
  | read _ hread =>
      cases hother with
      | read _ hreadOther =>
          cases hread.symm.trans hreadOther
          rfl

/-! ## One member -/

theorem find?_name (table : Table σ) (i : table.Slot) :
    (table.fields.find? fun f => f.name = table.name i) = some (table.field i) := by
  have hslot : (table.slots.find? fun j => table.name j = table.name i) = some i := by
    cases hfind : table.slots.find? fun j => table.name j = table.name i with
    | none =>
        rw [List.find?_eq_none] at hfind
        exact absurd (decide_eq_true rfl) (hfind i (table.mem_slots i))
    | some j =>
        have hname := List.find?_some hfind
        rw [decide_eq_true_eq] at hname
        rw [table.name_injective j i hname]
  rw [fields, List.find?_map]
  exact congrArg (Option.map table.field) hslot

theorem find?_other {name : String} (h : forall i, table.name i ≠ name) :
    (table.fields.find? fun f => f.name = name) = none := by
  rw [fields, List.find?_map, Option.map_eq_none_iff, List.find?_eq_none]
  intro i _ hname
  exact h i (of_decide_eq_true hname)

theorem readMember_of_unset {i : table.Slot} {outline : Outline} (h : table.get i s = none) :
    readMember table.fields s (table.name i, outline) =
      (table.reader i outline).map fun a => table.put i a s := by
  have hunset : (table.field i).isSet s = false := congrArg Option.isSome h
  simp only [readMember, find?_name, hunset, Bool.false_eq_true, if_false]
  rfl

theorem readMember_of_set {i : table.Slot} {outline : Outline} (h : table.get i s ≠ none) :
    readMember table.fields s (table.name i, outline) = .error .mismatched := by
  have hset : (table.field i).isSet s = true := Option.isSome_iff_ne_none.mpr h
  simp only [readMember, find?_name, hset, if_true]

theorem readMember_other {name : String} {outline : Outline}
    (h : forall i, table.name i ≠ name) :
    readMember table.fields s (name, outline) = (Outline.skip outline).map fun _ => s := by
  simp only [readMember, find?_other h]

/-- What reading one member does: it sets the slot of its name, or passes over a member of another
name. -/
theorem cases_of_readMember {name : String} {outline : Outline}
    (h : readMember table.fields s (name, outline) = .ok s') :
    (∃ i a, table.name i = name ∧ table.get i s = none ∧ table.reader i outline = .ok a ∧
      s' = table.put i a s) ∨
    ((forall i, table.name i ≠ name) ∧ s' = s) := by
  by_cases hslot : ∃ i, table.name i = name
  · rcases hslot with ⟨i, rfl⟩
    by_cases hunset : table.get i s = none
    · rw [readMember_of_unset hunset] at h
      cases hread : table.reader i outline with
      | error fault =>
          rw [hread] at h
          cases h
      | ok a =>
          rw [hread] at h
          cases h
          exact .inl ⟨i, a, rfl, hunset, hread, rfl⟩
    · rw [readMember_of_set hunset] at h
      cases h
  · have hother : forall i, table.name i ≠ name := fun i hname => hslot ⟨i, hname⟩
    rw [readMember_other hother] at h
    cases hskip : Outline.skip outline with
    | error fault =>
        rw [hskip] at h
        cases h
    | ok u =>
        rw [hskip] at h
        cases h
        exact .inr ⟨hother, rfl⟩

theorem name_ne {i j : table.Slot} (h : i ≠ j) : table.name i ≠ table.name j :=
  fun hname => h (table.name_injective i j hname)

/-! ## All members -/

theorem filled_of_readMember {entry : String × Outline} {i : table.Slot}
    {after : Option (table.Value i)} (h : readMember table.fields s entry = .ok s')
    (hlater : Filled (table.reader i) (table.get i s') (under (table.name i) entries) after) :
    Filled (table.reader i) (table.get i s) (under (table.name i) (entry :: entries)) after := by
  rcases entry with ⟨name, outline⟩
  rcases cases_of_readMember h with ⟨j, a, rfl, hunset, hread, rfl⟩ | ⟨hother, rfl⟩
  · by_cases hsame : j = i
    · cases hsame
      -- The slot is set now, so no later member has its name.
      rw [table.get_put] at hlater
      rcases hlater.eq_of_set with ⟨hnone, rfl⟩
      rw [under_cons_self, hunset, hnone]
      exact Filled.read rfl hread
    · rw [under_cons_of_ne (name_ne hsame)]
      rwa [table.get_put_of_ne j i a s hsame] at hlater
  · rwa [under_cons_of_ne (hother i).symm]

theorem filled_of_members (h : members table.fields s entries = .ok s') (i : table.Slot) :
    Filled (table.reader i) (table.get i s) (under (table.name i) entries) (table.get i s') := by
  induction entries generalizing s with
  | nil =>
      cases h
      exact Filled.kept
  | cons entry entries ih =>
      rw [members_cons] at h
      rcases ok_of_bind h with ⟨next, hnext, hrest⟩
      exact filled_of_readMember hnext (ih hrest)

def Fillable (table : Table σ) (s : σ) (entries : List (String × Outline)) : Prop :=
  forall i, ∃ after, Filled (table.reader i) (table.get i s) (under (table.name i) entries) after

theorem exists_readMember {name : String} {outline : Outline}
    (hfillable : table.Fillable s ((name, outline) :: entries))
    (hskip : Outline.skip outline = .ok ()) :
    ∃ s', readMember table.fields s (name, outline) = .ok s' ∧ table.Fillable s' entries := by
  by_cases hslot : ∃ j, table.name j = name
  · rcases hslot with ⟨j, rfl⟩
    rcases hfillable j with ⟨after, hafter⟩
    rw [under_cons_self] at hafter
    generalize houtlines : under (table.name j) entries = outlines at hafter
    cases hafter with
    | @read _ a hunset hread =>
        rw [readMember_of_unset hunset, hread]
        refine ⟨table.put j a s, rfl, ?_⟩
        intro i
        by_cases hsame : j = i
        · cases hsame
          rw [houtlines]
          exact ⟨_, Filled.kept⟩
        · rcases hfillable i with ⟨after, hafter⟩
          rw [under_cons_of_ne (name_ne hsame)] at hafter
          rw [table.get_put_of_ne j i a s hsame]
          exact ⟨after, hafter⟩
  · have hother : forall j, table.name j ≠ name := fun j hname => hslot ⟨j, hname⟩
    rw [readMember_other hother, hskip]
    refine ⟨s, rfl, ?_⟩
    intro i
    rcases hfillable i with ⟨after, hafter⟩
    rw [under_cons_of_ne (hother i).symm] at hafter
    exact ⟨after, hafter⟩

/-- The members are read where the outlines under each name can fill its slot and all can be passed
over. -/
theorem exists_members (hfillable : table.Fillable s entries)
    (hskip : forall entry, entry ∈ entries -> Outline.skip entry.2 = .ok ()) :
    ∃ s', members table.fields s entries = .ok s' := by
  induction entries generalizing s with
  | nil => exact ⟨s, rfl⟩
  | cons entry entries ih =>
      rcases exists_readMember hfillable (hskip entry List.mem_cons_self) with
        ⟨next, hnext, hrest⟩
      rw [members_cons, bind_of_ok hnext]
      exact ih hrest fun other hother => hskip other (List.mem_cons_of_mem _ hother)

theorem members_of_values (hreader : forall i, ReadsValues (table.reader i))
    {values : List (String × Json)} (h : Outline.memberValues entries = .ok values) :
    members table.fields s entries = members table.fields s (Outline.ofMembers values) := by
  induction entries generalizing s values with
  | nil =>
      cases h
      rfl
  | cons entry entries ih =>
      rcases entry with ⟨name, outline⟩
      rw [Outline.memberValues] at h
      rcases ok_of_bind h with ⟨v, hv, hrest⟩
      rcases ok_of_bind hrest with ⟨vs, hvs, hlast⟩
      cases hlast
      have hmember : readMember table.fields s (name, outline) =
          readMember table.fields s (name, Outline.ofJson v) := by
        by_cases hslot : ∃ j, table.name j = name
        · rcases hslot with ⟨j, rfl⟩
          by_cases hset : table.get j s = none
          · rw [readMember_of_unset hset, readMember_of_unset hset, hreader j hv]
          · rw [readMember_of_set hset, readMember_of_set hset]
        · have hother : forall j, table.name j ≠ name := fun j hname => hslot ⟨j, hname⟩
          rw [readMember_other hother, readMember_other hother, Outline.skip_of_value hv,
            Outline.skip_ofJson]
      rw [Outline.ofMembers, members_cons, members_cons, hmember]
      exact congrArg _ (funext fun s => ih hvs)

end Table
end Reader
end Json
end KeyRegistry

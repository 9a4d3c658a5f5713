import KeyRegistry.Json.Reader
import KeyRegistry.Proofs.Except

/-!
# Texts and the values read from them

The outline of a text that can be read as a value, and that gives no record two
members of one name, is the outline of that value.  Every typed reader therefore
finds in the text what it finds in the value.  A record whose own members have
different names has the members of its value, whatever stands inside of them.
-/

namespace KeyRegistry
namespace Json

/-! ## Members of different names -/

theorem put_of_not_mem {name : String} (value : Json) {members : List (String × Json)}
    (h : name ∉ members.map Prod.fst) : put name value members = members ++ [(name, value)] := by
  induction members with
  | nil => rfl
  | cons member members ih =>
      rw [List.map_cons, List.mem_cons, not_or] at h
      rw [put, if_neg (Ne.symm h.1), ih h.2]
      rfl

theorem foldl_put (before members : List (String × Json))
    (h : ((before ++ members).map Prod.fst).Nodup) :
    members.foldl (fun acc member => put member.1 member.2 acc) before = before ++ members := by
  induction members generalizing before with
  | nil => simp
  | cons member members ih =>
      have hnew : member.1 ∉ before.map Prod.fst := by
        intro hmem
        rw [List.map_append, List.map_cons, List.nodup_append] at h
        exact h.2.2 _ hmem _ List.mem_cons_self rfl
      rw [List.foldl_cons, put_of_not_mem member.2 hnew, ih]
      · simp
      · simpa using h

theorem collect_eq {members : List (String × Json)} (h : (members.map Prod.fst).Nodup) :
    collect members = members :=
  foldl_put [] members h

theorem names_put_of_mem {name : String} (value : Json) {members : List (String × Json)}
    (h : name ∈ members.map Prod.fst) :
    (put name value members).map Prod.fst = members.map Prod.fst := by
  induction members with
  | nil => cases h
  | cons member members ih =>
      rw [put]
      split
      · rename_i hname
        rw [List.map_cons, List.map_cons, hname]
      · rename_i hname
        rw [List.map_cons, List.mem_cons] at h
        rw [List.map_cons, List.map_cons, ih (h.resolve_left (Ne.symm hname))]

theorem nodup_put {name : String} (value : Json) {members : List (String × Json)}
    (h : (members.map Prod.fst).Nodup) : ((put name value members).map Prod.fst).Nodup := by
  by_cases hname : name ∈ members.map Prod.fst
  · rwa [names_put_of_mem value hname]
  · rw [put_of_not_mem value hname, List.map_append, List.map_singleton, List.nodup_append]
    refine ⟨h, List.nodup_cons.mpr ⟨List.not_mem_nil, List.nodup_nil⟩, ?_⟩
    intro other hother last hlast heq
    cases List.mem_singleton.mp hlast
    cases heq
    exact hname hother

theorem nodup_collect (members : List (String × Json)) :
    ((collect members).map Prod.fst).Nodup := by
  have hfold : forall before : List (String × Json), (before.map Prod.fst).Nodup ->
      ((members.foldl (fun acc member => put member.1 member.2 acc) before).map Prod.fst).Nodup := by
    induction members with
    | nil => exact fun before h => h
    | cons member members ih => exact fun before h => ih _ (nodup_put member.2 h)
  exact hfold [] List.nodup_nil

theorem mem_of_member? {name : String} {members : List (String × Json)} {value : Json}
    (h : (Json.record members).member? name = some value) : (name, value) ∈ members := by
  rw [member?] at h
  rcases Option.map_eq_some_iff.mp h with ⟨member, hfind, rfl⟩
  have hname := List.find?_some hfind
  rw [decide_eq_true_eq] at hname
  rw [← hname]
  exact List.mem_of_find?_eq_some hfind

theorem not_mem_of_member? {name : String} {members : List (String × Json)}
    (h : (Json.record members).member? name = none) : name ∉ members.map Prod.fst := by
  intro hmem
  rcases List.mem_map.mp hmem with ⟨member, hmember, rfl⟩
  rw [member?, Option.map_eq_none_iff, List.find?_eq_none] at h
  exact h member hmember (decide_eq_true rfl)

namespace Outline

theorem none_of_close {tail : Option Stop} {u : Unit} (h : close tail = .ok u) : tail = none := by
  cases tail with
  | none => rfl
  | some stop => cases h

/-! ## Members of a record -/

def entries : Outline -> List (String × Outline)
  | .record members _ => members
  | _ => []

/-- Whether no two members have one name; the members of members do not count. -/
def hasNamesOnce (outline : Outline) : Bool :=
  (outline.entries.map Prod.fst).Nodup

theorem names_of_memberValues {members : List (String × Outline)} {values : List (String × Json)}
    (h : memberValues members = .ok values) :
    values.map Prod.fst = members.map Prod.fst := by
  induction members generalizing values with
  | nil =>
      cases h
      rfl
  | cons member members ih =>
      rw [memberValues] at h
      rcases ok_of_bind h with ⟨v, hv, hrest⟩
      rcases ok_of_bind hrest with ⟨vs, hvs, hlast⟩
      cases hlast
      rw [List.map_cons, List.map_cons, ih hvs]

theorem exists_entries {outline : Outline} {members : List (String × Json)}
    (hnames : outline.hasNamesOnce = true) (h : outline.value = .ok (.record members)) :
    ∃ entries, outline = .record entries none ∧ (entries.map Prod.fst).Nodup ∧
      memberValues entries = .ok members := by
  cases outline with
  | record entries tail =>
      have hnodup : (entries.map Prod.fst).Nodup := of_decide_eq_true hnames
      rw [value] at h
      rcases ok_of_bind h with ⟨vs, hvs, hclose⟩
      rcases ok_of_bind hclose with ⟨_, htail, hlast⟩
      cases none_of_close htail
      rw [collect_eq (names_of_memberValues hvs ▸ hnodup)] at hlast
      cases hlast
      exact ⟨entries, rfl, hnodup, hvs⟩
  | list items tail =>
      rw [value] at h
      rcases ok_of_bind h with ⟨vs, _, hclose⟩
      rcases ok_of_bind hclose with ⟨_, _, hlast⟩
      cases hlast
  | null | bool | number | text | stopped => cases h

theorem exists_entry {entries : List (String × Outline)} {members : List (String × Json)}
    {name : String} {v : Json} (h : memberValues entries = .ok members)
    (hmember : (Json.record members).member? name = some v) :
    ∃ outline, (name, outline) ∈ entries ∧ outline.value = .ok v := by
  have hmem := mem_of_member? hmember
  clear hmember
  induction entries generalizing members with
  | nil =>
      cases h
      cases hmem
  | cons entry entries ih =>
      rw [memberValues] at h
      rcases ok_of_bind h with ⟨first, hfirst, hrest⟩
      rcases ok_of_bind hrest with ⟨rest, hvalues, hlast⟩
      cases hlast
      rcases List.mem_cons.mp hmem with heq | hmem
      · cases heq
        exact ⟨entry.2, List.mem_cons_self, hfirst⟩
      · rcases ih hvalues hmem with ⟨outline, houtline, hvalue⟩
        exact ⟨outline, List.mem_cons_of_mem _ houtline, hvalue⟩

theorem no_entry {entries : List (String × Outline)} {members : List (String × Json)}
    {name : String} (h : memberValues entries = .ok members)
    (hmember : (Json.record members).member? name = none) : name ∉ entries.map Prod.fst := by
  rw [← names_of_memberValues h]
  exact not_mem_of_member? hmember

theorem exists_list_of_value {items : List Outline} {tail : Option Stop} {v : Json}
    (h : (Outline.list items tail).value = .ok v) : ∃ vs, v = .list vs := by
  rw [value] at h
  rcases ok_of_bind h with ⟨vs, _, hclose⟩
  rcases ok_of_bind hclose with ⟨_, _, hlast⟩
  cases hlast
  exact ⟨vs, rfl⟩

theorem exists_record_of_value {members : List (String × Outline)} {tail : Option Stop} {v : Json}
    (h : (Outline.record members tail).value = .ok v) : ∃ vs, v = .record vs := by
  rw [value] at h
  rcases ok_of_bind h with ⟨vs, _, hclose⟩
  rcases ok_of_bind hclose with ⟨_, _, hlast⟩
  cases hlast
  exact ⟨collect vs, rfl⟩

/-- An outline that is read as neither a list nor a record is determined by its value. -/
theorem ofJson_of_scalar {outline : Outline} {v : Json} (h : outline.value = .ok v)
    (hlist : forall items, v ≠ .list items) (hrecord : forall members, v ≠ .record members) :
    outline = ofJson v := by
  cases outline with
  | null | bool | number | text =>
      cases h
      rfl
  | list items tail =>
      rcases exists_list_of_value h with ⟨vs, hvs⟩
      exact absurd hvs (hlist vs)
  | record members tail =>
      rcases exists_record_of_value h with ⟨vs, hvs⟩
      exact absurd hvs (hrecord vs)
  | stopped => cases h

/-! ## Values that are passed over -/

mutual

theorem skip_of_value : forall {outline : Outline} {v : Json},
    outline.value = .ok v -> skip outline = .ok ()
  | .null, _, _ => rfl
  | .bool _, _, _ => rfl
  | .number _, _, _ => rfl
  | .text _, _, _ => rfl
  | .list items tail, _, h => by
      rw [value] at h
      rcases ok_of_bind h with ⟨vs, hvs, hclose⟩
      rcases ok_of_bind hclose with ⟨_, htail, hlast⟩
      cases none_of_close htail
      rw [skip, skipAll_of_values hvs]
      rfl
  | .record members tail, _, h => by
      rw [value] at h
      rcases ok_of_bind h with ⟨vs, hvs, hclose⟩
      rcases ok_of_bind hclose with ⟨_, htail, hlast⟩
      cases none_of_close htail
      rw [skip, skipMembers_of_memberValues hvs]
      rfl
  | .stopped _, _, h => by
      cases h

theorem skipAll_of_values : forall {items : List Outline} {vs : List Json},
    values items = .ok vs -> skipAll items = .ok ()
  | [], _, _ => rfl
  | item :: items, _, h => by
      rw [values] at h
      rcases ok_of_bind h with ⟨v, hv, hrest⟩
      rcases ok_of_bind hrest with ⟨vs, hvs, hlast⟩
      rw [skipAll, skip_of_value hv]
      exact skipAll_of_values hvs

theorem skipMembers_of_memberValues : forall {members : List (String × Outline)}
    {vs : List (String × Json)},
    memberValues members = .ok vs -> skipMembers members = .ok ()
  | [], _, _ => rfl
  | (name, member) :: members, _, h => by
      rw [memberValues] at h
      rcases ok_of_bind h with ⟨v, hv, hrest⟩
      rcases ok_of_bind hrest with ⟨vs, hvs, hlast⟩
      rw [skipMembers, skip_of_value hv]
      exact skipMembers_of_memberValues hvs

end

theorem skip_of_mem {entries : List (String × Outline)} {members : List (String × Json)}
    {entry : String × Outline} (h : memberValues entries = .ok members) (hmem : entry ∈ entries) :
    skip entry.2 = .ok () := by
  induction entries generalizing members with
  | nil => cases hmem
  | cons first entries ih =>
      rw [memberValues] at h
      rcases ok_of_bind h with ⟨v, hv, hrest⟩
      rcases ok_of_bind hrest with ⟨vs, hvs, hlast⟩
      rcases List.mem_cons.mp hmem with rfl | hmem
      · exact skip_of_value hv
      · exact ih hvs hmem

mutual

theorem skip_ofJson : forall v : Json, skip (ofJson v) = .ok ()
  | .null => rfl
  | .bool _ => rfl
  | .number _ => rfl
  | .text _ => rfl
  | .list items => by
      rw [ofJson, skip, skipAll_ofItems items]
      rfl
  | .record members => by
      rw [ofJson, skip, skipMembers_ofMembers members]
      rfl

theorem skipAll_ofItems : forall items : List Json, skipAll (ofItems items) = .ok ()
  | [] => rfl
  | item :: items => by
      rw [ofItems, skipAll, skip_ofJson item]
      exact skipAll_ofItems items

theorem skipMembers_ofMembers : forall members : List (String × Json),
    skipMembers (ofMembers members) = .ok ()
  | [] => rfl
  | (_, value) :: members => by
      rw [ofMembers, skipMembers, skip_ofJson value]
      exact skipMembers_ofMembers members

end

theorem skip_of_mem_ofMembers {members : List (String × Json)} {entry : String × Outline}
    (h : entry ∈ ofMembers members) : skip entry.2 = .ok () := by
  induction members with
  | nil => cases h
  | cons member members ih =>
      rw [ofMembers] at h
      rcases List.mem_cons.mp h with rfl | h
      · exact skip_ofJson member.2
      · exact ih h

/-! ## Outlines of values -/

mutual

/-- Whether no record in an outline has two members of one name. -/
def isDistinct : Outline -> Bool
  | .list items _ => areDistinct items
  | .record members _ => decide (members.map Prod.fst).Nodup && haveDistinct members
  | _ => true

def areDistinct : List Outline -> Bool
  | [] => true
  | item :: items => isDistinct item && areDistinct items

def haveDistinct : List (String × Outline) -> Bool
  | [] => true
  | (_, value) :: members => isDistinct value && haveDistinct members

end

mutual

theorem ofJson_of_value : forall {outline : Outline} {v : Json},
    outline.isDistinct = true -> outline.value = .ok v -> ofJson v = outline
  | .null, _, _, h => by
      cases h
      rfl
  | .bool _, _, _, h => by
      cases h
      rfl
  | .number _, _, _, h => by
      cases h
      rfl
  | .text _, _, _, h => by
      cases h
      rfl
  | .list items tail, _, hdistinct, h => by
      rw [value] at h
      rcases ok_of_bind h with ⟨vs, hvs, hclose⟩
      rcases ok_of_bind hclose with ⟨_, htail, hlast⟩
      cases none_of_close htail
      cases hlast
      rw [ofJson, ofItems_of_values hdistinct hvs]
  | .record members tail, _, hdistinct, h => by
      rw [isDistinct, Bool.and_eq_true, decide_eq_true_eq] at hdistinct
      rw [value] at h
      rcases ok_of_bind h with ⟨vs, hvs, hclose⟩
      rcases ok_of_bind hclose with ⟨_, htail, hlast⟩
      cases none_of_close htail
      cases hlast
      have hnames : (vs.map Prod.fst).Nodup := by
        rw [names_of_memberValues hvs]
        exact hdistinct.1
      rw [ofJson, collect_eq hnames, ofMembers_of_memberValues hdistinct.2 hvs]
  | .stopped _, _, _, h => by
      cases h

theorem ofItems_of_values : forall {items : List Outline} {vs : List Json},
    areDistinct items = true -> values items = .ok vs -> ofItems vs = items
  | [], _, _, h => by
      cases h
      rfl
  | item :: items, _, hdistinct, h => by
      rw [areDistinct, Bool.and_eq_true] at hdistinct
      rw [values] at h
      rcases ok_of_bind h with ⟨v, hv, hrest⟩
      rcases ok_of_bind hrest with ⟨vs, hvs, hlast⟩
      cases hlast
      rw [ofItems, ofJson_of_value hdistinct.1 hv, ofItems_of_values hdistinct.2 hvs]

theorem ofMembers_of_memberValues : forall {members : List (String × Outline)}
    {vs : List (String × Json)},
    haveDistinct members = true -> memberValues members = .ok vs -> ofMembers vs = members
  | [], _, _, h => by
      cases h
      rfl
  | (name, member) :: members, _, hdistinct, h => by
      rw [haveDistinct, Bool.and_eq_true] at hdistinct
      rw [memberValues] at h
      rcases ok_of_bind h with ⟨v, hv, hrest⟩
      rcases ok_of_bind hrest with ⟨vs, hvs, hlast⟩
      cases hlast
      rw [ofMembers, ofJson_of_value hdistinct.1 hv, ofMembers_of_memberValues hdistinct.2 hvs]

end

end Outline

/-! ## Texts -/

/-- Whether a text gives no record two members of one name. -/
def namesOnce (text : String) : Bool :=
  (Outline.ofText text).1.isDistinct

def ending {α : Type} (a : α) : Option (List Char) -> Except Fault α
  | some rest => if (dropBlank rest).isEmpty then .ok a else .error .malformed
  | none => .error .malformed

theorem read_eq {α : Type} (reader : Reader α) (text : String) :
    read reader text =
      (reader (Outline.ofText text).1 >>= fun a => ending a (Outline.ofText text).2) :=
  rfl

theorem ending_ok {α β : Type} {a a' : α} {rest : Option (List Char)}
    (h : ending a rest = .ok a') (b : β) : ending b rest = .ok b ∧ a = a' := by
  cases rest with
  | none => cases h
  | some rest =>
      rw [ending] at h ⊢
      by_cases hblank : (dropBlank rest).isEmpty = true
      · rw [if_pos hblank] at h ⊢
        cases h
        exact ⟨rfl, rfl⟩
      · rw [if_neg hblank] at h
        cases h

theorem value_of_parse {text : String} {value : Json} (h : parse text = .ok value) :
    (Outline.ofText text).1.value = .ok value := by
  rw [parse, read_eq] at h
  rcases ok_of_bind h with ⟨v, hvalue, hend⟩
  cases (ending_ok hend ()).2
  exact hvalue

/-- Where a text can be read as a value, a reader has nothing to find behind the outline. -/
theorem read_eq_reader {α : Type} (reader : Reader α) {text : String} {value : Json}
    (h : parse text = .ok value) : read reader text = reader (Outline.ofText text).1 := by
  rw [parse, read_eq] at h
  rcases ok_of_bind h with ⟨v, _, hend⟩
  rw [read_eq]
  cases reader (Outline.ofText text).1 with
  | error fault => rfl
  | ok a => exact (ending_ok hend a).1

theorem read_of_parse {α : Type} (reader : Reader α) {text : String} {value : Json}
    (hnames : namesOnce text = true) (h : parse text = .ok value) :
    read reader text = readValue reader value := by
  rw [read_eq_reader reader h, readValue, Outline.ofJson_of_value hnames (value_of_parse h)]

theorem namedWith_value (entries : List (String × Outline)) :
    Reader.namedWith Outline.value entries = Outline.memberValues entries := by
  induction entries with
  | nil => rfl
  | cons entry entries ih =>
      rcases entry with ⟨name, outline⟩
      rw [Reader.namedWith, Outline.memberValues, ih]

/-- A text that can be read as members is a record with these members, repeated names included. -/
theorem exists_entries_of_named {text : String} {members : List (String × Json)}
    (h : read (Reader.named Outline.value) text = .ok members) :
    ∃ entries, Outline.memberValues entries = .ok members ∧
      forall {α : Type} (reader : Reader α), read reader text = reader (.record entries none) := by
  rw [read_eq] at h
  rcases ok_of_bind h with ⟨found, hnamed, hend⟩
  cases (ending_ok hend ()).2
  cases houtline : (Outline.ofText text).1 with
  | record entries tail =>
      rw [houtline, Reader.named] at hnamed
      rcases ok_of_bind hnamed with ⟨values, hvalues, hclose⟩
      rcases ok_of_bind hclose with ⟨_, htail, hlast⟩
      cases Outline.none_of_close htail
      cases hlast
      rw [namedWith_value] at hvalues
      refine ⟨entries, hvalues, fun reader => ?_⟩
      rw [read_eq, houtline]
      cases reader (.record entries none) with
      | error fault => rfl
      | ok a => exact (ending_ok hend a).1
  | null | bool | number | text | list | stopped =>
      rw [houtline] at hnamed
      cases hnamed

end Json
end KeyRegistry

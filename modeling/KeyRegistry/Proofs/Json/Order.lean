import KeyRegistry.Proofs.Json.Table

/-!
# Members in any order

Values are alike where they differ in the order of the members of records only, at
any depth.  A typed reader finds the same in values that are alike: it looks at what
stands under the names of its fields, and a field is set only once.
-/

namespace KeyRegistry
namespace Json

/-! ## Values that are alike -/

/-- Whether two values are the same but for the order of the members of records. -/
inductive Alike : Json -> Json -> Prop where
  | null : Alike .null .null
  | bool (b : Bool) : Alike (.bool b) (.bool b)
  | number (n : Number) : Alike (.number n) (.number n)
  | text (s : String) : Alike (.text s) (.text s)
  | list {items others : List Json} :
      List.Forall₂ Alike items others ->
      Alike (.list items) (.list others)
  | record {members others : List (String × Json)} :
      (forall name, List.Forall₂ Alike (under name members) (under name others)) ->
      Alike (.record members) (.record others)

mutual

theorem Alike.refl : forall v : Json, Alike v v
  | .null => .null
  | .bool b => .bool b
  | .number n => .number n
  | .text s => .text s
  | .list items => .list (alike_items items)
  | .record members => .record fun name => alike_under name members

theorem alike_items : forall items : List Json, List.Forall₂ Alike items items
  | [] => .nil
  | item :: items => .cons (Alike.refl item) (alike_items items)

theorem alike_under (name : String) : forall members : List (String × Json),
    List.Forall₂ Alike (under name members) (under name members)
  | [] => .nil
  | (other, value) :: members => by
      by_cases hname : other = name
      · rw [hname, under_cons_self]
        exact .cons (Alike.refl value) (alike_under name members)
      · rw [under_cons_of_ne hname]
        exact alike_under name members

end

theorem alike_of_perm {members others : List (String × Json)}
    (hnames : (members.map Prod.fst).Nodup) (h : members.Perm others) :
    Alike (.record members) (.record others) := by
  apply Alike.record
  intro name
  have hunder := under_perm h name
  have hsame : under name others = under name members := by
    by_cases hmem : name ∈ members.map Prod.fst
    · rcases List.mem_map.mp hmem with ⟨member, hmember, hname⟩
      rw [under_eq_singleton hnames (show (name, member.2) ∈ members from hname ▸ hmember)]
        at hunder ⊢
      exact List.singleton_perm.mp hunder |>.symm
    · rw [under_eq_nil hmem] at hunder ⊢
      exact List.nil_perm.mp hunder
  rw [hsame]
  exact alike_under name members

/-! ## Readers -/

namespace Reader

def IgnoresOrder {α : Type} (reader : Reader α) : Prop :=
  forall {v w : Json}, Alike v w -> Agree (readValue reader v) (readValue reader w)

section

variable {α : Type} {reader : Reader α}

theorem ignoresOrder_of_refuses
    (hlist : forall items, reader (.list items none) = .error .mismatched)
    (hrecord : forall members, reader (.record members none) = .error .mismatched) :
    IgnoresOrder reader := by
  intro v w h
  cases h with
  | null | bool | number | text => exact Agree.refl _
  | list =>
      rw [readValue, readValue, Outline.ofJson, Outline.ofJson, hlist, hlist]
      exact Agree.refl _
  | record =>
      rw [readValue, readValue, Outline.ofJson, Outline.ofJson, hrecord, hrecord]
      exact Agree.refl _

theorem ignoresOrder_text : IgnoresOrder text :=
  ignoresOrder_of_refuses (fun _ => rfl) (fun _ => rfl)

theorem ignoresOrder_bool : IgnoresOrder bool :=
  ignoresOrder_of_refuses (fun _ => rfl) (fun _ => rfl)

theorem ignoresOrder_optional (hreader : IgnoresOrder reader) : IgnoresOrder (optional reader) := by
  intro v w h
  have hread := (hreader h).map some
  cases h with
  | null => exact Agree.refl _
  | bool | number | text | list | record => exact hread

theorem agree_itemsWith (hreader : IgnoresOrder reader) {items others : List Json}
    (h : List.Forall₂ Alike items others) :
    Agree (itemsWith reader (Outline.ofItems items)) (itemsWith reader (Outline.ofItems others)) := by
  induction h with
  | nil => exact Agree.refl _
  | cons hitem _ ih =>
      exact (hreader hitem).bind fun a => ih.bind fun as => Agree.refl _

theorem ignoresOrder_list (hreader : IgnoresOrder reader) : IgnoresOrder (list reader) := by
  intro v w h
  cases h with
  | null | bool | number | text => exact Agree.refl _
  | list hitems => exact (agree_itemsWith hreader hitems).bind fun as => Agree.refl _
  | record => exact Agree.error _ _

end

/-! ## Records -/

namespace Table

variable {σ : Type} {table : Table σ} {s : σ}

def IsComplete (table : Table σ) : Prop :=
  forall s s', (forall i, table.get i s = table.get i s') -> s = s'

theorem filled_of_agree {α : Type} {reader : Reader α} {before after : Option α}
    {outlines others : List Outline}
    (h : List.Forall₂ (fun outline other => Agree (reader outline) (reader other)) outlines others)
    (hfilled : Filled reader before outlines after) : Filled reader before others after := by
  cases hfilled with
  | kept =>
      cases h
      exact .kept
  | read hbefore hread =>
      cases h with
      | cons hfirst hrest =>
          cases hrest
          exact .read hbefore (hfirst.eq_ok hread)

theorem members_eq_ok_of_agree (hcomplete : table.IsComplete)
    {entries others : List (String × Outline)} {s' : σ}
    (h : forall i, List.Forall₂
      (fun outline other => Agree (table.reader i outline) (table.reader i other))
      (under (table.name i) entries) (under (table.name i) others))
    (hskip : forall entry, entry ∈ others -> Outline.skip entry.2 = .ok ())
    (hread : members table.fields s entries = .ok s') :
    members table.fields s others = .ok s' := by
  have hfilled : forall i, Filled (table.reader i) (table.get i s) (under (table.name i) others)
      (table.get i s') :=
    fun i => filled_of_agree (h i) (filled_of_members hread i)
  rcases exists_members (fun i => ⟨_, hfilled i⟩) hskip with ⟨last, hlast⟩
  have hsame : last = s' :=
    hcomplete last s' fun i => (filled_of_members hlast i).unique (hfilled i)
  rw [hlast, hsame]

theorem agree_under (hreader : forall i, IgnoresOrder (table.reader i))
    {members others : List (String × Json)}
    (h : forall name, List.Forall₂ Alike (under name members) (under name others)) (i : table.Slot) :
    List.Forall₂ (fun outline other => Agree (table.reader i outline) (table.reader i other))
      (under (table.name i) (Outline.ofMembers members))
      (under (table.name i) (Outline.ofMembers others)) := by
  rw [under_ofMembers, under_ofMembers, List.forall₂_map_left_iff, List.forall₂_map_right_iff]
  exact (h (table.name i)).imp fun v w hvalue => hreader i hvalue

theorem agree_members (hcomplete : table.IsComplete)
    (hreader : forall i, IgnoresOrder (table.reader i)) {members others : List (String × Json)}
    (h : forall name, List.Forall₂ Alike (under name members) (under name others)) :
    Agree (Reader.members table.fields s (Outline.ofMembers members))
      (Reader.members table.fields s (Outline.ofMembers others)) := by
  have hunder := agree_under hreader h
  apply Agree.of_successes
  · intro s'
    exact members_eq_ok_of_agree hcomplete hunder fun _ => Outline.skip_of_mem_ofMembers
  · intro s'
    apply members_eq_ok_of_agree hcomplete _ fun _ => Outline.skip_of_mem_ofMembers
    intro i
    exact (hunder i).flip.imp fun _ _ hagree => hagree.symm

theorem agree_inOrder (hreader : forall i, IgnoresOrder (table.reader i))
    (slots : List table.Slot) {items others : List Json} (h : List.Forall₂ Alike items others) :
    Agree (inOrder none (slots.map table.field) s (Outline.ofItems items))
      (inOrder none (slots.map table.field) s (Outline.ofItems others)) := by
  induction slots generalizing s items others with
  | nil =>
      cases h with
      | nil => exact Agree.refl _
      | cons => exact Agree.error _ _
  | cons i slots ih =>
      cases h with
      | nil => exact Agree.refl _
      | cons hitem hrest => exact ((hreader i hitem).map _).bind fun s => ih hrest

theorem ignoresOrder_record (hcomplete : table.IsComplete)
    (hreader : forall i, IgnoresOrder (table.reader i)) (start : σ) :
    IgnoresOrder (record table.fields start) := by
  intro v w h
  cases h with
  | null | bool | number | text => exact Agree.refl _
  | list hitems => exact agree_inOrder hreader table.slots hitems
  | record hunder =>
      rw [readValue, readValue, Outline.ofJson, Outline.ofJson, record_entries, record_entries]
      exact agree_members hcomplete hreader hunder

end Table
end Reader
end Json
end KeyRegistry

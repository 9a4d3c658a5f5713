import KeyRegistry.FileSystem
import KeyRegistry.Proofs.Except
import KeyRegistry.Proofs.Text.Utf8

/-!
# Files that have been written

A file that takes the place of a file, or of nothing, is found under the same path
as before, and is read with the content that was written.
-/

namespace KeyRegistry
namespace FileTree

variable {tree : FileTree} {place : Place}

def replaced (place : Place) (entry : FileEntry) (e : Place × FileEntry) : Place × FileEntry :=
  if e.1 = place then (place, entry) else e

theorem place_replaced (place : Place) (entry : FileEntry) (e : Place × FileEntry) :
    (replaced place entry e).1 = e.1 := by
  unfold replaced
  split
  next h => exact h.symm
  next => rfl

theorem find?_replaced (entries : List (Place × FileEntry)) (place other : Place)
    (entry : FileEntry) :
    (entries.map (replaced place entry)).find? (fun e => e.1 = other) =
      (entries.find? fun e => e.1 = other).map (replaced place entry) := by
  rw [List.find?_map]
  simp only [Function.comp_def, place_replaced]

theorem entry?_put_self (tree : FileTree) (entry : FileEntry) (h : place.isEmpty = false) :
    entry? (tree.put place entry) place = some entry := by
  unfold entry? put
  rw [h]
  by_cases hany : (tree.entries.any fun e => e.1 = place) = true
  · rcases Option.isSome_iff_exists.mp (List.find?_isSome.mpr (List.any_eq_true.mp hany)) with
      ⟨found, hfound⟩
    have hname := List.find?_some hfound
    rw [decide_eq_true_eq] at hname
    have hreplaced := find?_replaced tree.entries place place entry
    rw [hfound] at hreplaced
    rw [if_pos hany]
    apply (congrArg (Option.map Prod.snd) hreplaced).trans
    simp [replaced, hname]
  · have hnone : tree.entries.find? (fun e => e.1 = place) = none :=
      List.find?_eq_none.mpr fun e he heq => hany (List.any_eq_true.mpr ⟨e, he, heq⟩)
    rw [if_neg hany]
    simp [List.find?_append, hnone]

theorem entry?_put_of_ne (tree : FileTree) (entry : FileEntry) {other : Place}
    (h : other ≠ place) : entry? (tree.put place entry) other = tree.entry? other := by
  unfold entry? put
  by_cases hany : (tree.entries.any fun e => e.1 = place) = true
  · have hsame : (tree.entries.find? fun e => e.1 = other).map (replaced place entry) =
        tree.entries.find? fun e => e.1 = other := by
      cases hfind : tree.entries.find? fun e => e.1 = other with
      | none => rfl
      | some found =>
          have hname := List.find?_some hfind
          rw [decide_eq_true_eq] at hname
          rw [Option.map_some, replaced, if_neg (hname ▸ h)]
    rw [if_pos hany]
    exact congrArg (fun found => if other.isEmpty = true then some FileEntry.directory
      else Option.map Prod.snd found) ((find?_replaced tree.entries place other entry).trans hsame)
  · rw [if_neg hany]
    simp [List.find?_append, h.symm]

theorem here_put (tree : FileTree) (place : Place) (entry : FileEntry) :
    (tree.put place entry).here = tree.here := by
  unfold put
  split <;> rfl

/-- No walk that arrives passes an entry that is not a directory, so none is led astray by a new
entry there. -/
theorem walk_put {entry : FileEntry} (hplace : tree.entry? place ≠ some .directory)
    {start target : Place} {names : List String} (h : tree.walk start names = .ok target) :
    (tree.put place entry).walk start names = .ok target := by
  induction names generalizing start with
  | nil => exact h
  | cons name names ih =>
      rw [walk] at h ⊢
      cases hstart : tree.entry? start with
      | none =>
          rw [hstart] at h
          cases h
      | some found =>
          rw [hstart] at h
          cases found with
          | file content => cases h
          | directory =>
              have hne : start ≠ place := by
                rintro rfl
                exact hplace hstart
              rw [entry?_put_of_ne tree entry hne, hstart]
              simp only at h ⊢
              split at h
              next hdot =>
                rw [if_pos hdot]
                exact ih h
              next hdot =>
                rw [if_neg hdot]
                split at h
                next hup =>
                  rw [if_pos hup]
                  exact ih h
                next hup =>
                  rw [if_neg hup]
                  split at h
                  next => cases h
                  next hlong =>
                    rw [if_neg hlong]
                    exact ih h

theorem locate_put {entry : FileEntry} {text : String} {target : Place}
    (hplace : tree.entry? place ≠ some .directory) (h : tree.locate text = .ok target) :
    (tree.put place entry).locate text = .ok target := by
  unfold locate at h ⊢
  split at h
  next => cases h
  next hzero =>
    rw [if_neg hzero]
    split at h
    next => cases h
    next hempty =>
      rw [if_neg hempty]
      split at h
      next => cases h
      next hlong =>
        rw [if_neg hlong, here_put]
        exact walk_put hplace h

theorem put_of_write {tree' : FileTree} {text : String} {content : Bytes}
    (h : tree.write text content = .ok tree') :
    ∃ place, tree.locate text = .ok place ∧ tree.entry? place ≠ some .directory ∧
      (Path.ofText text).directoryOnly = false ∧ tree' = tree.put place (.file content) := by
  rcases ok_of_bind h with ⟨place, hplace, hwrite⟩
  refine ⟨place, hplace, ?_⟩
  cases hentry : tree.entry? place with
  | none =>
      rw [hentry] at hwrite
      cases hpath : (Path.ofText text).directoryOnly with
      | true =>
          rw [hpath] at hwrite
          cases hwrite
      | false =>
          rw [hpath] at hwrite
          cases hwrite
          exact ⟨nofun, rfl, rfl⟩
  | some entry =>
      rw [hentry] at hwrite
      cases entry with
      | directory => cases hwrite
      | file old =>
          cases hpath : (Path.ofText text).directoryOnly with
          | true =>
              rw [hpath] at hwrite
              cases hwrite
          | false =>
              rw [hpath] at hwrite
              cases hwrite
              exact ⟨nofun, rfl, rfl⟩

/-! ## Contents -/

/-- The content of the file at a place, if there is one. -/
def file? (tree : FileTree) (place : Place) : Option Bytes :=
  match tree.entry? place with
  | some (.file content) => some content
  | _ => none

theorem read_eq_ok_iff {text : String} {content : Bytes} :
    tree.read text = .ok content ↔
      ∃ place, tree.locate text = .ok place ∧ (Path.ofText text).directoryOnly = false ∧
        tree.file? place = some content := by
  unfold read file?
  constructor
  · intro h
    rcases ok_of_bind h with ⟨place, hplace, hread⟩
    refine ⟨place, hplace, ?_⟩
    cases hentry : tree.entry? place with
    | none =>
        rw [hentry] at hread
        cases hread
    | some entry =>
        rw [hentry] at hread
        cases entry with
        | directory => cases hread
        | file found =>
            cases hpath : (Path.ofText text).directoryOnly with
            | true =>
                rw [hpath] at hread
                cases hread
            | false =>
                rw [hpath] at hread
                cases hread
                exact ⟨rfl, rfl⟩
  · intro h
    rcases h with ⟨place, hplace, hpath, hfile⟩
    rw [bind_of_ok hplace]
    cases hentry : tree.entry? place with
    | none =>
        rw [hentry] at hfile
        cases hfile
    | some entry =>
        rw [hentry] at hfile
        cases entry with
        | directory => cases hfile
        | file found =>
            cases hfile
            exact if_neg (by simp [hpath])

theorem readText_eq_ok_iff {path text : String} :
    tree.readText path = .ok text ↔ tree.read path = .ok (Text.encode text) := by
  unfold readText
  constructor
  · intro h
    rcases ok_of_bind h with ⟨content, hread, hdecode⟩
    cases htext : Text.decode? content with
    | none =>
        rw [htext] at hdecode
        cases hdecode
    | some found =>
        rw [htext] at hdecode
        cases hdecode
        rw [Text.encode_of_decode? htext]
        exact hread
  · intro h
    rw [bind_of_ok h, Text.decode?_encode]
    rfl

/-- The content of a place after writes, the latest of which comes last. -/
def contentAfter (place : Place) (before : Option Bytes) (writes : List (Place × Bytes)) :
    Option Bytes :=
  writes.foldl (fun content write => if write.1 = place then some write.2 else content) before

theorem contentAfter_append (place : Place) (before : Option Bytes)
    (writes later : List (Place × Bytes)) :
    contentAfter place before (writes ++ later) =
      contentAfter place (contentAfter place before writes) later :=
  List.foldl_append

theorem contentAfter_of_untouched {place : Place} {writes : List (Place × Bytes)}
    (h : forall write, write ∈ writes -> write.1 ≠ place) (before : Option Bytes) :
    contentAfter place before writes = before := by
  induction writes with
  | nil => rfl
  | cons write writes ih =>
      rcases List.forall_mem_cons.mp h with ⟨hother, hrest⟩
      show contentAfter place (if write.1 = place then some write.2 else before) writes = before
      rw [if_neg hother]
      exact ih hrest

/-! ## Trees that have evolved -/

/-- `later` comes from `tree` by writes to files, the latest of which comes last, and by new
directories: a path that leads to a place still leads there. -/
structure Evolves (tree later : FileTree) (writes : List (Place × Bytes)) : Prop where
  locate_eq : forall text place, tree.locate text = .ok place -> later.locate text = .ok place
  file_eq : forall place, later.file? place = contentAfter place (tree.file? place) writes

theorem evolves_refl (tree : FileTree) : Evolves tree tree [] where
  locate_eq _ _ h := h
  file_eq _ := rfl

theorem Evolves.trans {tree middle later : FileTree} {writes more : List (Place × Bytes)}
    (h : Evolves tree middle writes) (hlater : Evolves middle later more) :
    Evolves tree later (writes ++ more) where
  locate_eq text place hplace := hlater.locate_eq text place (h.locate_eq text place hplace)
  file_eq place := by
    rw [hlater.file_eq, h.file_eq, contentAfter_append]

theorem file?_put_of_ne (tree : FileTree) (entry : FileEntry) {other : Place} (h : other ≠ place) :
    (tree.put place entry).file? other = tree.file? other := by
  unfold file?
  rw [entry?_put_of_ne tree entry h]

theorem evolves_put_directory (h : tree.entry? place = none) :
    Evolves tree (tree.put place .directory) [] where
  locate_eq text target htarget := by
    have hplace : tree.entry? place ≠ some .directory := by
      rw [h]
      exact nofun
    exact locate_put hplace htarget
  file_eq other := by
    by_cases hother : other = place
    · have hroot : place.isEmpty = false := by
        cases place with
        | nil => cases h
        | cons name names => rfl
      rw [hother]
      unfold file?
      rw [entry?_put_self tree .directory hroot, h]
      rfl
    · exact file?_put_of_ne tree .directory hother

theorem evolves_put_file {content : Bytes} (h : tree.entry? place ≠ some .directory) :
    Evolves tree (tree.put place (.file content)) [(place, content)] where
  locate_eq text target htarget := locate_put h htarget
  file_eq other := by
    show _ = if place = other then some content else tree.file? other
    by_cases hother : other = place
    · have hroot : place.isEmpty = false := by
        cases place with
        | nil => exact absurd rfl h
        | cons name names => rfl
      rw [if_pos hother.symm, hother]
      unfold file?
      rw [entry?_put_self tree (.file content) hroot]
    · rw [if_neg (Ne.symm hother)]
      exact file?_put_of_ne tree (.file content) hother

theorem evolves_makeDirectory {made : FileTree} {text : String}
    (h : tree.makeDirectory text = .ok made) : Evolves tree made [] := by
  rcases ok_of_bind h with ⟨place, _, hmake⟩
  cases hentry : tree.entry? place with
  | none =>
      rw [hentry] at hmake
      cases hmake
      exact evolves_put_directory hentry
  | some entry =>
      rw [hentry] at hmake
      cases hmake

theorem evolves_write {later : FileTree} {text : String} {content : Bytes}
    (h : tree.write text content = .ok later) :
    ∃ place, later.locate text = .ok place ∧ (Path.ofText text).directoryOnly = false ∧
      Evolves tree later [(place, content)] := by
  rcases put_of_write h with ⟨place, hplace, hentry, hpath, hput⟩
  rw [hput]
  exact ⟨place, locate_put hentry hplace, hpath, evolves_put_file hentry⟩

/-! ## Operations of several steps -/

theorem Attempt.evolves_andThen {attempt : Attempt} {next : FileTree -> Attempt}
    (h : Evolves tree attempt.tree [])
    (hnext : forall middle, Evolves middle (next middle).tree []) :
    Evolves tree (attempt.andThen next).tree [] := by
  unfold Attempt.andThen
  cases attempt.result with
  | ok done => exact h.trans (hnext attempt.tree)
  | error cause => exact h

theorem evolves_tryDirectory (tree : FileTree) (text : String) :
    Evolves tree (tree.tryDirectory text).tree [] := by
  unfold tryDirectory
  cases hmake : tree.makeDirectory text with
  | ok made => exact evolves_makeDirectory hmake
  | error cause => exact evolves_refl tree

theorem evolves_tryDirectories (fuel : Nat) (tree : FileTree) (text : String) :
    Evolves tree (tryDirectories fuel tree text).tree [] := by
  induction fuel generalizing tree text with
  | zero => exact evolves_refl tree
  | succ fuel ih =>
      rw [tryDirectories]
      split
      · exact evolves_refl tree
      · split
        · split
          · exact evolves_refl tree
          · exact Attempt.evolves_andThen (ih tree _) fun middle => evolves_tryDirectory middle text
        · exact evolves_tryDirectory tree text

/-- How an attempt to write a file ends: with the file written, or with no file changed. -/
inductive Attempt.Writes (tree : FileTree) (text : String) (content : Bytes) : Attempt -> Prop where
  | written {later : FileTree} {place : Place} :
      later.locate text = .ok place -> (Path.ofText text).directoryOnly = false ->
      Evolves tree later [(place, content)] ->
      Writes tree text content ⟨later, .ok ()⟩
  | unwritten {later : FileTree} {cause : FileError} :
      Evolves tree later [] ->
      Writes tree text content ⟨later, .error cause⟩

theorem Attempt.Writes.later {middle : FileTree} {text : String} {content : Bytes}
    {attempt : Attempt} (h : Writes middle text content attempt) (hmiddle : Evolves tree middle []) :
    Writes tree text content attempt := by
  cases h with
  | written hplace hpath hevolves => exact written hplace hpath (hmiddle.trans hevolves)
  | unwritten hevolves => exact unwritten (hmiddle.trans hevolves)

theorem writes_step (tree : FileTree) (text : String) (content : Bytes) :
    Attempt.Writes tree text content (Attempt.step tree (tree.write text content)) := by
  cases hwrite : tree.write text content with
  | ok written =>
      rcases evolves_write hwrite with ⟨place, hplace, hpath, hevolves⟩
      exact Attempt.Writes.written hplace hpath hevolves
  | error cause => exact Attempt.Writes.unwritten (evolves_refl tree)

theorem writes_tryWriteDeep (tree : FileTree) (text : String) (content : Bytes) :
    Attempt.Writes tree text content (tree.tryWriteDeep text content) := by
  have hwrite : forall above : Attempt, Evolves tree above.tree [] ->
      Attempt.Writes tree text content
        (above.andThen fun tree => Attempt.step tree (tree.write text content)) := by
    intro above habove
    rcases above with ⟨made, result⟩
    cases result with
    | ok done => exact (writes_step made text content).later habove
    | error cause => exact Attempt.Writes.unwritten habove
  unfold tryWriteDeep
  apply hwrite
  cases parent? text with
  | none => exact evolves_refl tree
  | some above => exact evolves_tryDirectories _ tree above

theorem Attempt.Writes.read_eq {text : String} {content : Bytes} {attempt : Attempt}
    {later : FileTree} (h : Writes tree text content attempt) (hlater : attempt.outcome = .ok later) :
    later.read text = .ok content := by
  cases h with
  | @written _ place hplace hpath hevolves =>
      cases hlater
      refine read_eq_ok_iff.mpr ⟨place, hplace, hpath, ?_⟩
      rw [hevolves.file_eq]
      exact if_pos rfl
  | unwritten => cases hlater

/-- A text is read from the file that it was written to, under whatever new directories. -/
theorem readText_of_writeDeep {later : FileTree} {path text : String}
    (h : tree.writeDeep path (Text.encode text) = .ok later) :
    later.readText path = .ok text :=
  readText_eq_ok_iff.mpr ((writes_tryWriteDeep tree path (Text.encode text)).read_eq h)

end FileTree
end KeyRegistry

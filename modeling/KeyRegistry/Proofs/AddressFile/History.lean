import KeyRegistry.Proofs.AddressFile
import KeyRegistry.Proofs.ByteTexts

/-!
# Histories of address files

Addresses are stored and read while others write to files of the same tree.  Each
access writes one file at most, so what a file holds is what was last written to it.
It is read as an address where it is the text of the address with white space around
it.  An address that has been stored is therefore read until its file is written
again, and reading changes nothing.
-/

namespace KeyRegistry

namespace FileTree

def Attempt.placed (attempt : Attempt) (path : String) (bytes : Bytes) : List (Place × Bytes) :=
  match attempt.outcome with
  | .error _ => []
  | .ok later =>
      match later.locate path with
      | .error _ => []
      | .ok place => [(place, bytes)]

theorem Attempt.Writes.evolves {tree : FileTree} {path : String} {bytes : Bytes}
    {attempt : Attempt} (h : Writes tree path bytes attempt) :
    Evolves tree attempt.tree (attempt.placed path bytes) := by
  unfold placed
  cases h with
  | written hplace _ hevolves =>
      simp only [outcome, hplace]
      exact hevolves
  | unwritten hevolves => exact hevolves

end FileTree

namespace AddressFile

open FileTree (Evolves contentAfter)

/-! ## What a file keeps -/

/-- Whether the bytes of a file keep an address: they are the text of the address with nothing but
white space around it. -/
def Keeps (bytes : Bytes) (a : Address) : Prop :=
  ∃ text core, Text.encode text = bytes ∧ Text.IsTrimmed text.toList core ∧
    a.IsSpelledBy (String.ofList core)

variable {tree : FileTree} {path : String} {a : Address}

theorem parse_eq_ok_iff {text : String} :
    parse text = .ok a ↔
      ∃ core, Text.IsTrimmed text.toList core ∧ a.IsSpelledBy (String.ofList core) := by
  unfold parse
  rw [Address.parse_eq_ok_iff_isSpelledBy]
  constructor
  · intro h
    exact ⟨_, Text.isTrimmed_trim text.toList, h⟩
  · intro h
    rcases h with ⟨core, htrimmed, hspelled⟩
    rw [Text.trim_of_isTrimmed htrimmed]
    exact hspelled

theorem read_eq_ok_iff_readText :
    read tree path = .ok a ↔ ∃ text, tree.readText path = .ok text ∧ parse text = .ok a := by
  unfold read
  cases tree.readText path with
  | error cause => exact iff_of_false nofun fun h => nomatch h
  | ok text =>
      simp only [Except.ok.injEq, exists_eq_left']
      cases parse text with
      | error cause => exact iff_of_false nofun nofun
      | ok found => simp only [Except.ok.injEq]

theorem read_eq_ok_iff :
    read tree path = .ok a ↔ ∃ bytes, tree.read path = .ok bytes ∧ Keeps bytes a := by
  rw [read_eq_ok_iff_readText]
  constructor
  · intro h
    rcases h with ⟨text, hread, hparse⟩
    rcases parse_eq_ok_iff.mp hparse with ⟨core, htrimmed, hspelled⟩
    exact ⟨_, FileTree.readText_eq_ok_iff.mp hread, text, core, rfl, htrimmed, hspelled⟩
  · intro h
    rcases h with ⟨bytes, hread, text, core, hbytes, htrimmed, hspelled⟩
    rw [← hbytes] at hread
    exact ⟨text, FileTree.readText_eq_ok_iff.mpr hread,
      parse_eq_ok_iff.mpr ⟨core, htrimmed, hspelled⟩⟩

/-! ## One access -/

namespace Access

def placed (tree : FileTree) (access : Access) : List (Place × Bytes) :=
  match access with
  | .store path a => (access.attempt tree).placed path (content a)
  | .write path bytes => (access.attempt tree).placed path bytes
  | .read _ => []

def isRead : Access -> Bool
  | .read _ => true
  | .store _ _ | .write _ _ => false

theorem evolves_after (tree : FileTree) (access : Access) :
    Evolves tree (access.after tree) (access.placed tree) := by
  cases access with
  | store path a => exact (FileTree.writes_tryWriteDeep tree path (content a)).evolves
  | write path bytes => exact (FileTree.writes_step tree path bytes).evolves
  | read path => exact FileTree.evolves_refl tree

theorem after_of_isRead {access : Access} (h : access.isRead = true) (tree : FileTree) :
    access.after tree = tree := by
  cases access with
  | read path => rfl
  | store path a => cases h
  | write path bytes => cases h

theorem after_store_of_write {stored : FileTree} (h : AddressFile.write tree path a = .ok stored) :
    (Access.store path a).after tree = stored := by
  unfold AddressFile.write FileTree.writeDeep FileTree.Attempt.outcome at h
  show (tree.tryWriteDeep path (content a)).tree = stored
  cases hresult : (tree.tryWriteDeep path (content a)).result with
  | ok done =>
      rw [hresult] at h
      cases h
      rfl
  | error cause =>
      rw [hresult] at h
      cases h

end Access

/-! ## Histories -/

def run (tree : FileTree) (accesses : List Access) : FileTree :=
  accesses.foldl Access.after tree

/-- What accesses have written, and where, the latest last. -/
def writes : FileTree -> List Access -> List (Place × Bytes)
  | _, [] => []
  | tree, access :: accesses => access.placed tree ++ writes (access.after tree) accesses

theorem evolves_run (tree : FileTree) (accesses : List Access) :
    Evolves tree (run tree accesses) (writes tree accesses) := by
  induction accesses generalizing tree with
  | nil => exact FileTree.evolves_refl tree
  | cons access accesses ih => exact (access.evolves_after tree).trans (ih (access.after tree))

theorem run_without_reads (tree : FileTree) (accesses : List Access) :
    run tree (accesses.filter fun access => !access.isRead) = run tree accesses := by
  induction accesses generalizing tree with
  | nil => rfl
  | cons access accesses ih =>
      cases hread : access.isRead with
      | true =>
          rw [List.filter_cons_of_neg (by simp [hread]), ih]
          show run tree accesses = run (access.after tree) accesses
          rw [Access.after_of_isRead hread]
      | false =>
          rw [List.filter_cons_of_pos (by simp [hread])]
          exact ih (access.after tree)

/-- After accesses, a path is read as the address that the last bytes written to its file keep, or
its bytes from before where none were written. -/
theorem read_run_iff (tree : FileTree) (accesses : List Access) :
    read (run tree accesses) path = .ok a ↔
      ∃ place bytes, (run tree accesses).locate path = .ok place ∧
        (FileTree.Path.ofText path).directoryOnly = false ∧
        contentAfter place (tree.file? place) (writes tree accesses) = some bytes ∧
        Keeps bytes a := by
  rw [read_eq_ok_iff]
  constructor
  · intro h
    rcases h with ⟨bytes, hread, hkeeps⟩
    rcases FileTree.read_eq_ok_iff.mp hread with ⟨place, hplace, hpath, hfile⟩
    rw [(evolves_run tree accesses).file_eq] at hfile
    exact ⟨place, bytes, hplace, hpath, hfile, hkeeps⟩
  · intro h
    rcases h with ⟨place, bytes, hplace, hpath, hfile, hkeeps⟩
    rw [← (evolves_run tree accesses).file_eq] at hfile
    exact ⟨bytes, FileTree.read_eq_ok_iff.mpr ⟨place, hplace, hpath, hfile⟩, hkeeps⟩

theorem read_run_of_untouched {place : Place} {later : List Access} (hread : read tree path = .ok a)
    (hplace : tree.locate path = .ok place)
    (huntouched : forall write, write ∈ writes tree later -> write.1 ≠ place) :
    read (run tree later) path = .ok a := by
  rcases read_eq_ok_iff.mp hread with ⟨bytes, hbytes, hkeeps⟩
  rcases FileTree.read_eq_ok_iff.mp hbytes with ⟨found, hfound, hpath, hfile⟩
  cases hplace.symm.trans hfound
  have hlater := (evolves_run tree later).locate_eq path place hplace
  refine (read_run_iff tree later).mpr ⟨place, bytes, hlater, hpath, ?_, hkeeps⟩
  rw [FileTree.contentAfter_of_untouched huntouched]
  exact hfile

/-- After any accesses, a path is read as the address that the last bytes written to its file keep;
an address that is stored then is read, whatever happens later to other files; and reading has
changed no file. -/
theorem reads_follow_writes (tree : FileTree) (accesses : List Access) :
    let now := run tree accesses
    (forall path a, read now path = .ok a ↔
      ∃ place bytes, now.locate path = .ok place ∧
        (FileTree.Path.ofText path).directoryOnly = false ∧
        contentAfter place (tree.file? place) (writes tree accesses) = some bytes ∧
        Keeps bytes a) ∧
    (forall path a stored place later, write now path a = .ok stored ->
      stored.locate path = .ok place ->
      (forall write, write ∈ writes stored later -> write.1 ≠ place) ->
      read (run now (.store path a :: later)) path = .ok a) ∧
    run tree (accesses.filter fun access => !access.isRead) = now := by
  intro now
  refine ⟨fun _ _ => read_run_iff tree accesses, ?_, run_without_reads tree accesses⟩
  intro path a stored place later hwrite hplace huntouched
  have hrun : run now (.store path a :: later) = run stored later :=
    congrArg (fun files => run files later) (Access.after_store_of_write hwrite)
  rw [hrun]
  exact read_run_of_untouched (read_of_write hwrite) hplace huntouched

/-- A directory that holds the file of one address. -/
def directoryOf (a : Address) : FileTree :=
  ⟨[(["d"], .directory), (["d", "a"], .file (content a))], []⟩

/-- A file that has held no text keeps an address, with a file beside it that has none and a store
below it that fails. -/
theorem reads_follow_writes_in_one_directory :
    let accesses := [Access.store "d/a" Address.zero, .write "d/a" [255]]
    let a := Address.repeated 1
    let later := [Access.write "d/b" [255], .read "d/b", .store "d/a/b" Address.zero,
      .store "e/a" Address.zero]
    write (run ⟨[], []⟩ accesses) "d/a" a = .ok (directoryOf a) ∧
      (directoryOf a).locate "d/a" = .ok ["d", "a"] ∧
      (forall write, write ∈ writes (directoryOf a) later -> write.1 ≠ ["d", "a"]) ∧
      read (run (run ⟨[], []⟩ accesses) (.store "d/a" a :: later)) "d/a" = .ok a := by
  intro accesses a later
  have hwrite : write (run ⟨[], []⟩ accesses) "d/a" a = .ok (directoryOf a) := by
    decide +kernel
  have hplace : (directoryOf a).locate "d/a" = .ok ["d", "a"] := by
    decide +kernel
  have huntouched : forall write, write ∈ writes (directoryOf a) later -> write.1 ≠ ["d", "a"] := by
    decide +kernel
  refine ⟨hwrite, hplace, huntouched, ?_⟩
  exact (reads_follow_writes ⟨[], []⟩ accesses).2.1 "d/a" a _ _ later hwrite hplace huntouched

end AddressFile
end KeyRegistry

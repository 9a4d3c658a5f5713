import KeyRegistry.AddressFile
import KeyRegistry.Proofs.Address
import KeyRegistry.Proofs.FileSystem
import KeyRegistry.Proofs.Text.Blank

/-!
# Addresses kept in files

The line that keeps an address is read back as the address, so an address that has
been written to a file is read from it.
-/

namespace KeyRegistry
namespace Text

theorem isBlank_hexDigitChar : forall n, n < 16 -> isBlank (hexDigitChar n) = false := by
  decide

end Text

namespace AddressFile

theorem isBlank_of_mem_toString (a : Address) {c : Char} (h : c ∈ a.toString.toList) :
    Text.isBlank c = false := by
  rw [Address.toList_toString] at h
  rcases List.mem_cons.mp h with rfl | h
  · decide
  · rcases List.mem_cons.mp h with rfl | h
    · decide
    · rcases Hex.exists_of_mem_digits a.bytes h with ⟨n, hn, rfl⟩
      exact Text.isBlank_hexDigitChar n hn

theorem parse_line (a : Address) : parse (a.toString ++ "\n") = .ok a := by
  have hline : (a.toString ++ "\n").toList = a.toString.toList ++ ['\n'] :=
    String.toList_append
  rw [parse, hline, Text.trim_line fun _ => isBlank_of_mem_toString a, String.ofList_toList,
    Address.parse_toString]

theorem read_of_write {tree tree' : FileTree} {path : String} {a : Address}
    (h : write tree path a = .ok tree') : read tree' path = .ok a := by
  unfold write at h
  cases hwrite : tree.writeDeep path (content a) with
  | error cause =>
      rw [hwrite] at h
      cases h
  | ok written =>
      rw [hwrite] at h
      cases h
      rw [read, FileTree.readText_of_writeDeep hwrite]
      simp only [parse_line]

end AddressFile
end KeyRegistry

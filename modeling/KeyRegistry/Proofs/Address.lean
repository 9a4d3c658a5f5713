import KeyRegistry.Address

/-!
# The text of an address

Two digits a byte are read back as the byte, so an address is read back from its
text.
-/

namespace KeyRegistry
namespace Hex

open Text (hexDigitChar utf8Length)

theorem digitValue?_hexDigitChar : forall n, n < 16 ->
    digitValue? (hexDigitChar n) = some n := by
  decide

theorem utf8Size_hexDigitChar : forall n, n < 16 -> (hexDigitChar n).utf8Size = 1 := by
  decide

variable (bs : Bytes)

theorem exists_of_mem_digits {c : Char} (h : c ∈ digits bs) : ∃ n, n < 16 ∧ c = hexDigitChar n := by
  induction bs with
  | nil => cases h
  | cons b bs ih =>
      have hb := b.toNat_lt
      rcases List.mem_cons.mp h with rfl | h
      · exact ⟨b.toNat / 16, by omega, rfl⟩
      · rcases List.mem_cons.mp h with rfl | h
        · exact ⟨b.toNat % 16, by omega, rfl⟩
        · exact ih h

theorem utf8Length_digits : utf8Length (digits bs) = 2 * bs.length := by
  induction bs with
  | nil => rfl
  | cons b bs ih =>
      have hb := b.toNat_lt
      unfold utf8Length at ih ⊢
      rw [digits, List.foldr_cons, List.foldr_cons, utf8Size_hexDigitChar _ (by omega),
        utf8Size_hexDigitChar _ (by omega), ih, List.length_cons]
      omega

theorem firstBad?_of_forall {cs : List Char} (h : forall c, c ∈ cs -> isDigit c = true)
    (position : Nat) : firstBad? position cs = none := by
  induction cs generalizing position with
  | nil => rfl
  | cons c cs ih =>
      rw [firstBad?, if_pos (h c List.mem_cons_self)]
      exact ih (fun c hc => h c (List.mem_cons_of_mem _ hc)) _

theorem isDigit_of_mem_digits {c : Char} (h : c ∈ digits bs) : isDigit c = true := by
  rcases exists_of_mem_digits bs h with ⟨n, hn, rfl⟩
  rw [isDigit, digitValue?_hexDigitChar n hn]
  rfl

theorem bytesOf_digits : bytesOf (digits bs) = bs := by
  induction bs with
  | nil => rfl
  | cons b bs ih =>
      have hb := b.toNat_lt
      rw [digits, bytesOf, digitValue?_hexDigitChar _ (by omega),
        digitValue?_hexDigitChar _ (by omega), ih, Option.getD_some, Option.getD_some,
        Nat.div_add_mod, UInt8.ofNat_toNat]

theorem decode_digits : decode (digits bs) = .ok bs := by
  have heven : ¬ utf8Length (digits bs) % 2 = 1 := by
    rw [utf8Length_digits]
    omega
  rw [decode, if_neg heven, firstBad?_of_forall fun c => isDigit_of_mem_digits bs, bytesOf_digits]

end Hex

namespace Address

theorem toList_toString (a : Address) : a.toString.toList = '0' :: 'x' :: Hex.digits a.bytes := by
  simp [toString, hex, Hex.encode]

theorem parse_toString (a : Address) : parse a.toString = .ok a := by
  rw [parse, toList_toString]
  simp only [Text.dropHexMark?, Hex.decode_digits]
  exact dif_pos a.length_eq

end Address
end KeyRegistry

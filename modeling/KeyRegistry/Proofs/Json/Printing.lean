import KeyRegistry.Json.Printer
import KeyRegistry.Proofs.Address
import KeyRegistry.Proofs.Json.Outline

/-!
# JSON text read back

A string is read back from its JSON text, whatever escapes its characters need.  So a
record of strings and nulls is read back member by member, where the text of each
member is followed by the text of the others.
-/

namespace KeyRegistry
namespace Json

open Text (hexDigitChar)

/-! ## Strings -/

def unitDigits (n : Nat) : List Char :=
  [hexDigitChar (n / 4096 % 16), hexDigitChar (n / 256 % 16), hexDigitChar (n / 16 % 16),
    hexDigitChar (n % 16)]

theorem codeUnit_unitDigits {n : Nat} (h : n < 0x10000) (rest : List Char) :
    codeUnit (unitDigits n ++ rest) = .ok (n, rest) := by
  have hdigit : forall k, Hex.digitValue? (hexDigitChar (k % 16)) = some (k % 16) :=
    fun k => Hex.digitValue?_hexDigitChar _ (Nat.mod_lt k (by decide))
  have hvalue : 4096 * (n / 4096 % 16) + 256 * (n / 256 % 16) + 16 * (n / 16 % 16) + n % 16 = n := by
    omega
  simp only [unitDigits, List.cons_append, List.nil_append, codeUnit, hdigit, hvalue]

theorem escapeUnits_eq (c : Char) :
    escapeUnits c =
      if c.toNat < 0x10000 then
        '\\' :: 'u' :: unitDigits c.toNat
      else
        '\\' :: 'u' :: (unitDigits (0xD800 + (c.toNat - 0x10000) / 1024) ++
          '\\' :: 'u' :: unitDigits (0xDC00 + (c.toNat - 0x10000) % 1024)) :=
  rfl

theorem toNat_bounds (c : Char) :
    c.toNat < 0xD800 ∨ 0xDFFF < c.toNat ∧ c.toNat < 0x110000 := by
  have hvalid := c.valid
  simp only [UInt32.isValidChar, Nat.isValidChar] at hvalid
  unfold Char.toNat
  omega

theorem unicodeEscape_low {c : Char} (h : c.toNat < 0x10000) (rest : List Char) :
    unicodeEscape (unitDigits c.toNat ++ rest) = .ok (c, rest) := by
  have hbounds := toNat_bounds c
  have hlow : ¬ (0xDC00 ≤ c.toNat ∧ c.toNat ≤ 0xDFFF) := by omega
  have hhigh : ¬ (0xD800 ≤ c.toNat ∧ c.toNat ≤ 0xDBFF) := by omega
  rw [unicodeEscape, codeUnit_unitDigits h]
  simp only [bind, Except.bind, if_neg hlow, if_neg hhigh, Char.ofNat_toNat]
  rfl

theorem unicodeEscape_of_pair {high low : Nat} {cs rest rest' : List Char}
    (hhigh : codeUnit cs = .ok (high, '\\' :: 'u' :: rest)) (hlow : codeUnit rest = .ok (low, rest'))
    (hpair : 0xD800 ≤ high ∧ high ≤ 0xDBFF) (hsecond : 0xDC00 ≤ low ∧ low ≤ 0xDFFF) :
    unicodeEscape cs =
      .ok (Char.ofNat (0x10000 + 1024 * (high - 0xD800) + (low - 0xDC00)), rest') := by
  have hfirst : ¬ (0xDC00 ≤ high ∧ high ≤ 0xDFFF) := by omega
  rw [unicodeEscape, hhigh]
  simp only [bind, Except.bind, if_neg hfirst, if_pos hpair, hlow, if_pos hsecond]
  rfl

theorem unicodeEscape_high {c : Char} (h : ¬ c.toNat < 0x10000) (rest : List Char) :
    unicodeEscape (unitDigits (0xD800 + (c.toNat - 0x10000) / 1024) ++
      '\\' :: 'u' :: (unitDigits (0xDC00 + (c.toNat - 0x10000) % 1024) ++ rest)) =
      .ok (c, rest) := by
  have hbounds := toNat_bounds c
  have hcode : 0x10000 + 1024 * (0xD800 + (c.toNat - 0x10000) / 1024 - 0xD800) +
      (0xDC00 + (c.toNat - 0x10000) % 1024 - 0xDC00) = c.toNat := by omega
  rw [unicodeEscape_of_pair (codeUnit_unitDigits (by omega) _) (codeUnit_unitDigits (by omega) _)
    (by omega) (by omega), hcode, Char.ofNat_toNat]

theorem readText_escapeChar (fuel : Nat) (acc : List Char) (c : Char) (rest : List Char) :
    readText (fuel + 1) acc (escapeChar c ++ rest) = readText fuel (c :: acc) rest := by
  rw [escapeChar]
  split
  · rename_i hescape
    rcases hescape with rfl | rfl
    · rfl
    · rfl
  · rename_i hplain
    rw [not_or] at hplain
    split
    · rename_i hprintable
      have hcontrol : ¬ c.toNat < 0x20 := by omega
      simp [readText, hplain.1, hplain.2, hcontrol]
    · rw [escapeUnits_eq]
      split
      · rename_i hsmall
        rw [List.cons_append, List.cons_append, readText, unicodeEscape_low hsmall]
      · rename_i hlarge
        rw [List.cons_append, List.cons_append, List.append_assoc, List.cons_append,
          List.cons_append, readText, unicodeEscape_high hlarge]

theorem readText_escaped (cs acc rest : List Char) {fuel : Nat} (h : cs.length < fuel) :
    readText fuel acc (cs.flatMap escapeChar ++ '"' :: rest) =
      .ok (String.ofList (acc.reverse ++ cs), rest) := by
  induction cs generalizing fuel acc with
  | nil =>
      cases fuel with
      | zero => cases h
      | succ fuel =>
          rw [List.append_nil]
          rfl
  | cons c cs ih =>
      cases fuel with
      | zero => cases h
      | succ fuel =>
          rw [List.flatMap_cons, List.append_assoc, readText_escapeChar,
            ih (c :: acc) (Nat.lt_of_succ_lt_succ h), List.reverse_cons, List.append_assoc,
            List.singleton_append]

theorem length_escapeChar_pos (c : Char) : 0 < (escapeChar c).length := by
  rw [escapeChar]
  split
  · exact Nat.succ_pos _
  · split
    · exact Nat.succ_pos _
    · rw [escapeUnits_eq]
      split
      · exact Nat.succ_pos _
      · exact Nat.succ_pos _

theorem length_le_escaped (cs : List Char) : cs.length ≤ (cs.flatMap escapeChar).length := by
  induction cs with
  | nil => exact Nat.zero_le _
  | cons c cs ih =>
      have hpos := length_escapeChar_pos c
      rw [List.flatMap_cons, List.length_append, List.length_cons]
      omega

theorem readText_quoted (s : String) (rest : List Char) :
    readText ((s.toList.flatMap escapeChar ++ '"' :: rest).length + 1) []
      (s.toList.flatMap escapeChar ++ '"' :: rest) = .ok (s, rest) := by
  have hlength := length_le_escaped s.toList
  rw [readText_escaped s.toList [] rest (by rw [List.length_append]; omega), List.reverse_nil,
    List.nil_append, String.ofList_toList]

theorem toList_quoteText (s : String) :
    (quoteText s).toList = '"' :: (s.toList.flatMap escapeChar ++ ['"']) :=
  String.toList_ofList

/-! ## Members -/

def IsFlat (value : Json) : Prop :=
  value = .null ∨ ∃ s, value = .text s

def printed (value : Json) : List Char :=
  (pieces value).flatMap String.toList

def printedMembers (separator : String) (members : List (String × Json)) : List Char :=
  (memberPieces separator members).flatMap String.toList

theorem printedMembers_cons (separator name : String) (value : Json)
    (members : List (String × Json)) :
    printedMembers separator ((name, value) :: members) =
      separator.toList ++ (quoteText name).toList ++ ':' :: (printed value ++
        printedMembers "," members) := by
  simp [printedMembers, printed, memberPieces]

theorem scanValue_printed {value : Json} (h : IsFlat value) (fuel depth : Nat)
    (rest : List Char) :
    scanValue (fuel + 1) depth (printed value ++ rest) = (Outline.ofJson value, some rest) := by
  rcases h with rfl | ⟨s, rfl⟩
  · rw [scanValue]
    rfl
  · have hprinted : printed (.text s) ++ rest =
        '"' :: (s.toList.flatMap escapeChar ++ '"' :: rest) := by
      simp [printed, pieces, toList_quoteText]
    rw [hprinted, scanValue]
    change scanText (s.toList.flatMap escapeChar ++ '"' :: rest) = _
    rw [scanText, readText_quoted]
    rfl

theorem scanMember_printed {name : String} {value : Json} (h : IsFlat value) (fuel depth : Nat)
    (rest : List Char) :
    scanMember (fuel + 2) depth ((quoteText name).toList ++ ':' :: (printed value ++ rest)) =
      ((name, Outline.ofJson value) :: (scanMembers (fuel + 1) depth false rest).1,
        (scanMembers (fuel + 1) depth false rest).2) := by
  have hquote : forall cs, dropBlank ('"' :: cs) = '"' :: cs := fun _ => rfl
  have hcolon : forall cs, dropBlank (':' :: cs) = ':' :: cs := fun _ => rfl
  rw [toList_quoteText, List.cons_append, List.append_assoc, List.singleton_append, scanMember]
  simp only [hquote, hcolon, readText_quoted, scanValue_printed h]

theorem scanMembers_first (fuel depth : Nat) (cs : List Char) :
    scanMembers (fuel + 1) depth true ('"' :: cs) = scanMember fuel depth ('"' :: cs) := by
  rw [scanMembers]
  rfl

theorem scanMembers_next (fuel depth : Nat) (cs : List Char) :
    scanMembers (fuel + 1) depth false (',' :: cs) = scanMember fuel depth cs := by
  rw [scanMembers]
  rfl

theorem scanMembers_printed {members : List (String × Json)}
    (h : forall member, member ∈ members -> IsFlat member.2) (depth : Nat) (rest : List Char)
    {fuel : Nat} (hfuel : 2 * members.length < fuel) :
    scanMembers fuel depth true (printedMembers "" members ++ '\x7d' :: rest) =
        (Outline.ofMembers members, none, some rest) ∧
      scanMembers fuel depth false (printedMembers "," members ++ '\x7d' :: rest) =
        (Outline.ofMembers members, none, some rest) := by
  induction members generalizing fuel with
  | nil =>
      cases fuel with
      | zero => cases hfuel
      | succ fuel =>
          rw [scanMembers, scanMembers]
          exact ⟨rfl, rfl⟩
  | cons member members ih =>
      rcases member with ⟨name, value⟩
      rw [List.length_cons] at hfuel
      have hvalue : IsFlat value := h _ List.mem_cons_self
      -- Three calls stand between the members and those behind the first of them.
      obtain ⟨fuel, rfl⟩ : ∃ k, fuel = k + 3 := ⟨fuel - 3, by omega⟩
      have hrestFuel : 2 * members.length < fuel + 1 := by omega
      have hrest :=
        (ih (fun member hmem => h member (List.mem_cons_of_mem _ hmem)) hrestFuel).2
      have hmember : scanMember (fuel + 2) depth ((quoteText name).toList ++
          ':' :: (printed value ++ (printedMembers "," members ++ '\x7d' :: rest))) =
          (Outline.ofMembers ((name, value) :: members), none, some rest) := by
        rw [scanMember_printed hvalue, hrest]
        rfl
      rw [← hmember]
      constructor
      · rw [printedMembers_cons, toList_quoteText]
        simp only [String.toList_empty, List.nil_append, List.cons_append, List.append_assoc]
        rw [scanMembers_first]
      · have hcomma : ",".toList = [','] := rfl
        rw [printedMembers_cons, hcomma]
        simp only [List.nil_append, List.cons_append, List.append_assoc]
        rw [scanMembers_next]

theorem scanValue_record (fuel depth : Nat) (cs : List Char) :
    scanValue (fuel + 1) (depth + 1) ('\x7b' :: cs) =
      (.record (scanMembers fuel depth true cs).1 (scanMembers fuel depth true cs).2.1,
        (scanMembers fuel depth true cs).2.2) := by
  rw [scanValue]
  rfl

theorem length_le_printedMembers (separator : String) (members : List (String × Json)) :
    members.length ≤ (printedMembers separator members).length := by
  induction members generalizing separator with
  | nil => exact Nat.zero_le _
  | cons member members ih =>
      rcases member with ⟨name, value⟩
      have hrest := ih ","
      rw [printedMembers_cons]
      simp only [List.length_append, List.length_cons]
      omega

theorem ofText_toText {members : List (String × Json)}
    (h : forall member, member ∈ members -> IsFlat member.2) :
    Outline.ofText (Json.record members).toText =
      (Outline.ofJson (.record members), some []) := by
  have htext : (Json.record members).toText.toList =
      '\x7b' :: (printedMembers "" members ++ ['\x7d']) := by
    rw [toText, String.toList_join]
    simp [pieces, printedMembers]
  have hlength := length_le_printedMembers "" members
  have hfuel : 2 * members.length < 4 * (Json.record members).toText.toList.length + 3 := by
    rw [htext, List.length_cons, List.length_append]
    omega
  have hmembers := (scanMembers_printed h 126 [] hfuel).1
  rw [Outline.ofText]
  change scanValue (4 * (Json.record members).toText.toList.length + 3 + 1) (126 + 1) _ = _
  generalize 4 * (Json.record members).toText.toList.length + 3 = fuel at hmembers ⊢
  rw [htext, scanValue_record, hmembers]
  rfl

theorem read_toText {α : Type} (reader : Reader α) {members : List (String × Json)}
    (h : forall member, member ∈ members -> IsFlat member.2) :
    read reader (Json.record members).toText = readValue reader (.record members) := by
  rw [read_eq, ofText_toText h, readValue]
  change (reader (Outline.ofJson (.record members)) >>= fun a => ending a (some [])) = _
  cases reader (Outline.ofJson (.record members)) with
  | error fault => rfl
  | ok a => rfl

end Json
end KeyRegistry

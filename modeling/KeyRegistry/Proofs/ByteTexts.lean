import KeyRegistry.Proofs.ValueTexts

/-!
# Byte strings in digits

Addresses, hashes and data are byte strings that stand in a text as two digits a
byte, behind a mark that only addresses need.  Their readers accept just the texts
with digits of the right number, and find what the digits denote: what is read is
displayed with the same digits in lower case, and what is displayed is read back.
So two texts are read as one value where they differ in their marks and in the case
of their letters only.
-/

namespace KeyRegistry
namespace Hex

/-- Whether a text is `cs`, with a mark in front or without one. -/
def IsSpelled (text : String) (cs : List Char) : Prop :=
  IsMarked text cs ∨ text.toList = cs

/-- A reader and a display of values in digits.  `spells` tells which characters of a text have to
be digits, and `fits` how many of them a value has. -/
structure IsCodec {α : Type} (spells : String -> List Char -> Prop) (fits : Nat -> Prop)
    (parse : String -> Except ValueError α) (display : α -> String) : Prop where
  accepts : forall text, (∃ a, parse text = .ok a) ↔
    ∃ cs, spells text cs ∧ AreDigits cs ∧ fits cs.length
  displays : forall text cs a, spells text cs -> AreDigits cs -> parse text = .ok a ->
    (display a).toList = '0' :: 'x' :: cs.map Char.toLower
  reads_back : forall a, parse (display a) = .ok a
  tells_apart : forall text other cs ds a b, spells text cs -> AreDigits cs ->
    spells other ds -> AreDigits ds -> parse text = .ok a -> parse other = .ok b ->
    (a = b ↔ cs.map Char.toLower = ds.map Char.toLower)

/-! ## Digits of the bytes that are read -/

variable {c : Char} {cs ds : List Char} {bs : Bytes} {text : String}

theorem hexDigitChar_of_digit (h : c.toLower ∈ alphabet) :
    Text.hexDigitChar ((digitValue? c).getD 0) = c.toLower := by
  have hplaces : (alphabet.all fun d => Text.hexDigitChar (alphabet.idxOf d) = d) = true := by
    decide
  rw [digitValue?_of_digit h]
  exact of_decide_eq_true (List.all_eq_true.mp hplaces _ h)

theorem digitValue_lt (h : c.toLower ∈ alphabet) : (digitValue? c).getD 0 < 16 := by
  rw [digitValue?_of_digit h]
  exact idxOf_lt h

theorem digits_bytesOf : forall {cs : List Char}, AreDigits cs -> cs.length % 2 = 0 ->
    digits (bytesOf cs) = cs.map Char.toLower
  | [], _, _ => rfl
  | [_], _, heven => by cases heven
  | high :: low :: cs, hdigits, heven => by
      rcases areDigits_cons.mp hdigits with ⟨hhigh, hrest⟩
      rcases areDigits_cons.mp hrest with ⟨hlow, htail⟩
      have hlt := digitValue_lt hlow
      have hbyte : (UInt8.ofNat (16 * (digitValue? high).getD 0 + (digitValue? low).getD 0)).toNat =
          16 * (digitValue? high).getD 0 + (digitValue? low).getD 0 := by
        apply UInt8.toNat_ofNat_of_lt'
        have hhighlt := digitValue_lt hhigh
        show _ < 256
        omega
      have hlength : cs.length % 2 = 0 := by
        rw [List.length_cons, List.length_cons, Nat.add_assoc, Nat.add_mod_right] at heven
        exact heven
      rw [bytesOf, digits, hbyte, Nat.mul_add_div (by decide), Nat.div_eq_of_lt hlt, Nat.add_zero,
        Nat.mul_add_mod, Nat.mod_eq_of_lt hlt, hexDigitChar_of_digit hhigh,
        hexDigitChar_of_digit hlow, digits_bytesOf htail hlength]
      rfl

theorem digits_of_decode (h : decode cs = .ok bs) : digits bs = cs.map Char.toLower := by
  rcases decode_eq_ok_iff.mp h with ⟨hdigits, hlength, hbytes⟩
  have heven : cs.length % 2 = 0 := by
    rw [hlength]
    exact Nat.mul_mod_right 2 bs.length
  rw [← hbytes]
  exact digits_bytesOf hdigits heven

theorem exists_decode_iff : (∃ bs, decode cs = .ok bs) ↔ AreDigits cs ∧ cs.length % 2 = 0 := by
  constructor
  · intro h
    rcases h with ⟨bs, hdecode⟩
    rcases decode_eq_ok_iff.mp hdecode with ⟨hdigits, hlength, _⟩
    rw [hlength]
    exact ⟨hdigits, Nat.mul_mod_right 2 bs.length⟩
  · intro h
    rcases h with ⟨hdigits, heven⟩
    exact ⟨bytesOf cs, decode_eq_ok_iff.mpr ⟨hdigits, length_bytesOf heven, rfl⟩⟩

theorem upperDigitChar_toLower : forall n, n < 16 ->
    (upperDigitChar n).toLower = Text.hexDigitChar n := by
  decide

theorem upperDigits_toLower (bs : Bytes) : (upperDigits bs).map Char.toLower = digits bs := by
  induction bs with
  | nil => rfl
  | cons b bs ih =>
      have hbyte := b.toNat_lt
      have hhigh : b.toNat / 16 < 16 := Nat.div_lt_of_lt_mul hbyte
      have hlow : b.toNat % 16 < 16 := Nat.mod_lt _ (by decide)
      rw [upperDigits, digits, List.map_cons, List.map_cons, upperDigitChar_toLower _ hhigh,
        upperDigitChar_toLower _ hlow, ih]

/-! ## Marks -/

theorem isMarked_unique (h : IsMarked text cs) (hother : IsMarked text ds) : cs = ds := by
  have hsome := dropHexMark?_eq_some_iff.mpr h
  rw [dropHexMark?_eq_some_iff.mpr hother] at hsome
  exact (Option.some.inj hsome).symm

theorem not_areDigits_of_isMarked (h : IsMarked text cs) : ¬ AreDigits text.toList := by
  intro hdigits
  rcases h with hlower | hupper
  · rw [hlower] at hdigits
    exact absurd (hdigits 'x' (List.mem_cons_of_mem _ List.mem_cons_self)) (by decide)
  · rw [hupper] at hdigits
    exact absurd (hdigits 'X' (List.mem_cons_of_mem _ List.mem_cons_self)) (by decide)

theorem isSpelled_unique (h : IsSpelled text cs) (hdigits : AreDigits cs)
    (hother : IsSpelled text ds) (hothers : AreDigits ds) : cs = ds := by
  rcases h with hmark | hplain
  · rcases hother with hmarked | hbare
    · exact isMarked_unique hmark hmarked
    · exact absurd (hbare ▸ hothers) (not_areDigits_of_isMarked hmark)
  · rcases hother with hmarked | hbare
    · exact absurd (hplain ▸ hdigits) (not_areDigits_of_isMarked hmarked)
    · exact hplain.symm.trans hbare

theorem decode_unmarked_iff :
    decode (Hash.unmarked text.toList) = .ok bs ↔ ∃ cs, IsSpelled text cs ∧ decode cs = .ok bs := by
  unfold Hash.unmarked
  constructor
  · intro h
    cases hmark : Text.dropHexMark? text.toList with
    | none =>
        rw [hmark] at h
        exact ⟨text.toList, .inr rfl, h⟩
    | some cs =>
        rw [hmark] at h
        exact ⟨cs, .inl (dropHexMark?_eq_some_iff.mp hmark), h⟩
  · intro h
    rcases h with ⟨cs, hmarked | hplain, hdecode⟩
    · rw [dropHexMark?_eq_some_iff.mpr hmarked]
      exact hdecode
    · cases hmark : Text.dropHexMark? text.toList with
      | none =>
          rw [hplain]
          exact hdecode
      | some ds =>
          have hdigits := (decode_eq_ok_iff.mp hdecode).1
          have hmarked := dropHexMark?_eq_some_iff.mp hmark
          exact absurd (hplain ▸ hdigits) (not_areDigits_of_isMarked hmarked)

/-! ## Codecs -/

theorem isCodec_of_bytes {α : Type} {spells : String -> List Char -> Prop} {fits : Nat -> Prop}
    {parse : String -> Except ValueError α} {display : α -> String} (bytes : α -> Bytes)
    (hparse : forall text a, parse text = .ok a ↔
      ∃ cs, spells text cs ∧ decode cs = .ok (bytes a))
    (hdisplay : forall a, (display a).toList = '0' :: 'x' :: digits (bytes a))
    (hmarked : forall text cs, IsMarked text cs -> spells text cs)
    (hunique : forall text cs ds, spells text cs -> AreDigits cs -> spells text ds ->
      AreDigits ds -> cs = ds)
    (hbytes : forall bs, (∃ a, bytes a = bs) ↔ fits (2 * bs.length))
    (heven : forall n, fits n -> n % 2 = 0) : IsCodec spells fits parse display := by
  have hshown : forall text cs a, spells text cs -> AreDigits cs -> parse text = .ok a ->
      (display a).toList = '0' :: 'x' :: cs.map Char.toLower := by
    intro text cs a hspells hdigits ha
    rcases (hparse text a).mp ha with ⟨ds, hds, hdecode⟩
    have hsame := hunique text cs ds hspells hdigits hds (decode_eq_ok_iff.mp hdecode).1
    rw [hdisplay, digits_of_decode hdecode, hsame]
  have hback : forall a, parse (display a) = .ok a := by
    intro a
    exact (hparse _ a).mpr ⟨digits (bytes a), hmarked _ _ (.inl (hdisplay a)), decode_digits _⟩
  constructor
  case accepts =>
    intro text
    constructor
    · intro h
      rcases h with ⟨a, ha⟩
      rcases (hparse text a).mp ha with ⟨cs, hspells, hdecode⟩
      rcases decode_eq_ok_iff.mp hdecode with ⟨hdigits, hlength, _⟩
      refine ⟨cs, hspells, hdigits, ?_⟩
      rw [hlength]
      exact (hbytes _).mp ⟨a, rfl⟩
    · intro h
      rcases h with ⟨cs, hspells, hdigits, hfits⟩
      rcases exists_decode_iff.mpr ⟨hdigits, heven _ hfits⟩ with ⟨bs, hdecode⟩
      rw [(decode_eq_ok_iff.mp hdecode).2.1] at hfits
      rcases (hbytes bs).mpr hfits with ⟨a, ha⟩
      exact ⟨a, (hparse text a).mpr ⟨cs, hspells, ha ▸ hdecode⟩⟩
  case displays => exact hshown
  case reads_back => exact hback
  case tells_apart =>
    intro text other cs ds a b hspells hcs hother hds ha hb
    have htext := hshown text cs a hspells hcs ha
    have hothers := hshown other ds b hother hds hb
    constructor
    · intro heq
      rw [heq, hothers] at htext
      exact (List.cons.inj (List.cons.inj htext).2).2.symm
    · intro heq
      rw [heq, ← hothers] at htext
      have hread := hback a
      rw [String.toList_inj.mp htext, hback b] at hread
      exact (Except.ok.inj hread).symm

theorem isCodec_of_size {α : Type} {spells : String -> List Char -> Prop} {size : Nat}
    {parse : String -> Except ValueError α} {display : α -> String} (bytes : α -> Bytes)
    (hsize : forall a, (bytes a).length = size)
    (hmake : forall bs : Bytes, bs.length = size -> ∃ a, bytes a = bs)
    (hparse : forall text a, parse text = .ok a ↔
      ∃ cs, spells text cs ∧ decode cs = .ok (bytes a))
    (hdisplay : forall a, (display a).toList = '0' :: 'x' :: digits (bytes a))
    (hmarked : forall text cs, IsMarked text cs -> spells text cs)
    (hunique : forall text cs ds, spells text cs -> AreDigits cs -> spells text ds ->
      AreDigits ds -> cs = ds) : IsCodec spells (· = 2 * size) parse display := by
  apply isCodec_of_bytes bytes hparse hdisplay hmarked hunique
  case hbytes =>
    intro bs
    constructor
    · intro h
      rcases h with ⟨a, ha⟩
      rw [← ha, hsize]
    · intro h
      exact hmake bs (Nat.eq_of_mul_eq_mul_left (by decide) h)
  case heven =>
    intro n hn
    rw [hn]
    exact Nat.mul_mod_right 2 size

theorem address_isCodec : IsCodec IsMarked (· = 40) Address.parse Address.toString := by
  apply isCodec_of_size Address.bytes Address.length_eq
  case hmake => exact fun bs h => ⟨⟨bs, h⟩, rfl⟩
  case hparse =>
    intro text a
    simp only [Address.parse_eq_ok_iff, dropHexMark?_eq_some_iff]
  case hdisplay => exact Address.toList_toString
  case hmarked => exact fun _ _ h => h
  case hunique => exact fun _ _ _ h _ hother _ => isMarked_unique h hother

theorem hash_isCodec : IsCodec IsSpelled (· = 64) Hash.parse Hash.toString := by
  apply isCodec_of_size Hash.bytes Hash.length_eq
  case hmake => exact fun bs h => ⟨⟨bs, h⟩, rfl⟩
  case hparse =>
    intro text h
    rw [Hash.parse_eq_ok_iff, decode_unmarked_iff]
  case hdisplay =>
    intro h
    simp [Hash.toString, Hash.hex, encode]
  case hmarked => exact fun _ _ => .inl
  case hunique => exact fun _ _ _ => isSpelled_unique

theorem data_isCodec : IsCodec IsSpelled (· % 2 = 0) Data.parse Data.format := by
  apply isCodec_of_bytes id
  case hparse =>
    intro text bs
    rw [← decode_unmarked_iff]
    unfold Data.parse Hash.unmarked
    simp only [id]
    cases decode ((Text.dropHexMark? text.toList).getD text.toList) with
    | ok found => simp only [Except.ok.injEq]
    | error fault => exact iff_of_false nofun nofun
  case hdisplay =>
    intro bs
    simp [Data.format, encode]
  case hmarked => exact fun _ _ => .inl
  case hunique => exact fun _ _ _ => isSpelled_unique
  case hbytes =>
    intro bs
    exact iff_of_true ⟨bs, rfl⟩ (Nat.mul_mod_right 2 bs.length)
  case heven => exact fun _ h => h

theorem parse_toUpper (a : Address) : Address.parse a.toUpper = .ok a := by
  have hmarked : IsMarked a.toUpper (upperDigits a.bytes) := by
    left
    simp [Address.toUpper, encodeUpper]
  have hdecode : decode (upperDigits a.bytes) = .ok a.bytes := by
    rw [← decode_toLower, upperDigits_toLower]
    exact decode_digits a.bytes
  exact Address.parse_eq_ok_iff.mpr ⟨_, dropHexMark?_eq_some_iff.mpr hmarked, hdecode⟩

/-- Addresses have a mark and forty digits, hashes sixty-four behind a mark or none, and data an even
number of them; an address is also read back from its digits in upper case. -/
theorem codecs_exact :
    IsCodec IsMarked (· = 40) Address.parse Address.toString ∧
      (forall a : Address, Address.parse a.toUpper = .ok a) ∧
      IsCodec IsSpelled (· = 64) Hash.parse Hash.toString ∧
      IsCodec IsSpelled (· % 2 = 0) Data.parse Data.format :=
  ⟨address_isCodec, parse_toUpper, hash_isCodec, data_isCodec⟩

end Hex

namespace Address

open Hex (AreDigits IsMarked)

/-- Whether a text is an address: a mark and the forty digits of its bytes, of either case. -/
def IsSpelledBy (a : Address) (text : String) : Prop :=
  ∃ cs, IsMarked text cs ∧ AreDigits cs ∧ cs.length = 40 ∧
    cs.map Char.toLower = Hex.digits a.bytes

theorem parse_eq_ok_iff_isSpelledBy {text : String} {a : Address} :
    parse text = .ok a ↔ a.IsSpelledBy text := by
  rw [parse_eq_ok_iff]
  constructor
  · intro h
    rcases h with ⟨cs, hmark, hdecode⟩
    rcases Hex.decode_eq_ok_iff.mp hdecode with ⟨hdigits, hlength, _⟩
    rw [a.length_eq] at hlength
    exact ⟨cs, Hex.dropHexMark?_eq_some_iff.mp hmark, hdigits, hlength,
      (Hex.digits_of_decode hdecode).symm⟩
  · intro h
    rcases h with ⟨cs, hmark, _, _, hbytes⟩
    refine ⟨cs, Hex.dropHexMark?_eq_some_iff.mpr hmark, ?_⟩
    rw [← Hex.decode_toLower, hbytes]
    exact Hex.decode_digits a.bytes

end Address
end KeyRegistry

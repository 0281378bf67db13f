import TagGateway.Proofs.Json.Scan

set_option autoImplicit false

namespace TagGateway

theorem Bytes.ofString_eq (text : String) :
    Bytes.ofString text = text.toList.flatMap String.utf8EncodeChar := by
  rw [Bytes.ofString, String.toUTF8, ← String.utf8Encode_toList, List.utf8Encode,
    List.data_toByteArray]

namespace Json

structure Plain (octets : Bytes) : Prop where
  printable : ∀ b ∈ octets, 0x20 ≤ b
  text : ∃ text : String, Bytes.ofString text = octets

theorem Plain.append {first second : Bytes} (hfirst : Plain first) (hsecond : Plain second) :
    Plain (first ++ second) := by
  obtain ⟨s, hs⟩ := hfirst.text
  obtain ⟨t, ht⟩ := hsecond.text
  refine { printable := fun b hb => ?_, text := ⟨s ++ t, ?_⟩ }
  · exact (List.mem_append.1 hb).elim (hfirst.printable b) (hsecond.printable b)
  · rw [← hs, ← ht]
    simp [Bytes.ofString_eq]

theorem encodeChar_ascii : ∀ n < 128, String.utf8EncodeChar (Char.ofNat n) = [UInt8.ofNat n] := by
  decide +kernel

theorem printOctet_ascii : ∀ n < 128,
    (printOctet (UInt8.ofNat n)).all fun b => 0x20 ≤ b && b < 0x80 := by
  decide +kernel

theorem printOctet_beyond : ∀ n < 256, 128 ≤ n → printOctet (UInt8.ofNat n) = [UInt8.ofNat n] := by
  decide +kernel

theorem plain_ascii {octets : Bytes} (h : ∀ b ∈ octets, 0x20 ≤ b ∧ b < 0x80) : Plain octets where
  printable b hb := (h b hb).1
  text := by
    refine ⟨String.ofList (octets.map fun b => Char.ofNat b.toNat), ?_⟩
    have hencode : ∀ b ∈ octets, String.utf8EncodeChar (Char.ofNat b.toNat) = [b] := fun b hb => by
      rw [encodeChar_ascii b.toNat (UInt8.lt_iff_toNat_lt.1 (h b hb).2), UInt8.ofNat_toNat]
    rw [Bytes.ofString_eq, String.toList_ofList, List.flatMap_map, List.flatMap_congr hencode]
    simp

theorem Plain.cons {b : UInt8} {rest : Bytes} (hb : 0x20 ≤ b ∧ b < 0x80) (h : Plain rest) :
    Plain (b :: rest) :=
  (plain_ascii (List.forall_mem_singleton.2 hb)).append h

theorem le_ofNat_add {n low : Nat} (hlow : 128 ≤ low) (hsum : n + low < 256) :
    0x80 ≤ UInt8.ofNat (n + low) := by
  rw [UInt8.le_iff_toNat_le, UInt8.toNat_ofNat_of_lt' hsum]
  exact Nat.le_add_left_of_le hlow

theorem le_of_mem_encodeChar {c : Char} (h : 128 ≤ c.toNat) :
    ∀ b ∈ String.utf8EncodeChar c, 0x80 ≤ b := by
  have hlead : ¬c.val.toNat ≤ 127 := Nat.not_le_of_lt h
  intro b hb
  simp only [String.utf8EncodeChar, if_neg hlead] at hb
  split at hb
  · simp only [List.mem_cons, List.not_mem_nil, or_false] at hb
    rcases hb with rfl | rfl <;> exact le_ofNat_add (by decide) (by omega)
  · split at hb
    · simp only [List.mem_cons, List.not_mem_nil, or_false] at hb
      rcases hb with rfl | rfl | rfl <;> exact le_ofNat_add (by decide) (by omega)
    · simp only [List.mem_cons, List.not_mem_nil, or_false] at hb
      rcases hb with rfl | rfl | rfl | rfl <;> exact le_ofNat_add (by decide) (by omega)

theorem plain_printChar (c : Char) : Plain ((String.utf8EncodeChar c).flatMap printOctet) := by
  by_cases h : c.toNat < 128
  · have hascii := encodeChar_ascii c.toNat h
    rw [Char.ofNat_toNat] at hascii
    rw [hascii, List.flatMap_singleton]
    exact plain_ascii (by simpa using printOctet_ascii c.toNat h)
  · have hle := le_of_mem_encodeChar (Nat.le_of_not_lt h)
    have hsame : ∀ b ∈ String.utf8EncodeChar c, printOctet b = [b] := fun b hb => by
      have := printOctet_beyond b.toNat b.toNat_lt (UInt8.le_iff_toNat_le.1 (hle b hb))
      rwa [UInt8.ofNat_toNat] at this
    rw [List.flatMap_congr hsame, List.flatMap_singleton']
    exact
      { printable := fun b hb => UInt8.le_trans (by decide) (hle b hb)
        text := ⟨String.singleton c, by simp [Bytes.ofString_eq]⟩ }

theorem plain_printString (text : String) : Plain (printString text) := by
  have hchars (chars : List Char) :
      Plain ((chars.flatMap String.utf8EncodeChar).flatMap printOctet) := by
    induction chars with
    | nil => exact plain_ascii (by simp)
    | cons c chars ih =>
      rw [List.flatMap_cons, List.flatMap_append]
      exact (plain_printChar c).append ih
  rw [printString, Bytes.ofString_eq]
  exact (hchars text.toList).append (plain_ascii (by decide +kernel)) |>.cons (by decide)

theorem numeralChar_ascii : ∀ n < 256, isNumeralChar (Char.ofNat n) →
    0x20 ≤ UInt8.ofNat n ∧ UInt8.ofNat n < 0x80 := by
  decide +kernel

theorem plain_numeral {chars : List Char} (h : ∀ c ∈ chars, isNumeralChar c) :
    Plain (Bytes.ofChars chars) := by
  refine plain_ascii fun b hb => ?_
  obtain ⟨c, hc, rfl⟩ := List.mem_map.1 hb
  have hchar := numeralChar_ascii c.toUInt8.toNat c.toUInt8.toNat_lt
  rw [ofNat_toUInt8 (h c hc), UInt8.ofNat_toNat] at hchar
  exact hchar (h c hc)

theorem plain_printInt (n : Int) : Plain (Bytes.ofChars (printInt n)) := by
  rw [← Numeral.spell_ofInt]
  exact plain_numeral fun c hc => Numeral.isNumeralChar_of_mem_spell (Numeral.formed_ofInt n) hc

theorem plain_printFloat (x : Float) : Plain (Bytes.ofChars (printFloat x)) := by
  cases hx : x.isFinite with
  | true =>
    rw [Numeral.spell_ofFloat hx]
    have hformed := Numeral.formed_ofFloat hx
    exact plain_numeral fun c hc => Numeral.isNumeralChar_of_mem_spell hformed hc
  | false =>
    have hnull : printFloat x = ['n', 'u', 'l', 'l'] := by simp [printFloat, hx]
    rw [hnull]
    exact plain_ascii (by decide +kernel)

mutual

theorem plain_print : ∀ j : Json, Plain j.print
  | .null | .bool true | .bool false | .broken => plain_ascii (by decide +kernel)
  | .int n => plain_printInt n
  | .float x => plain_printFloat x
  | .str text => plain_printString text
  | .arr items =>
    (plain_printItems items).append (plain_ascii (by decide +kernel)) |>.cons (by decide)
  | .obj members =>
    (plain_printMembers members).append (plain_ascii (by decide +kernel)) |>.cons (by decide)

theorem plain_printItems : ∀ items : List Json, Plain (printItems items)
  | [] => plain_ascii (by simp [printItems])
  | [item] => plain_print item
  | item :: next :: more =>
    (plain_print item).append ((plain_printItems (next :: more)).cons (by decide))

theorem plain_printMembers : ∀ members : List (String × Json), Plain (printMembers members)
  | [] => plain_ascii (by simp [printMembers])
  | [(name, value)] => (plain_printString name).append ((plain_print value).cons (by decide))
  | (name, value) :: next :: more =>
    (plain_printString name).append <| .cons (by decide) <|
      (plain_print value).append <| .cons (by decide) <| plain_printMembers (next :: more)

end

end Json

end TagGateway
